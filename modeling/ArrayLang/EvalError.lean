import ArrayLang.Text
import ArrayLang.Value.Basic
import ArrayLang.Verb.Basic

set_option autoImplicit false

/-!
# Why an evaluation fails

Each cause carries what its message needs; the wording is in `EvalError.message`
alone.
-/

namespace ArrayLang

/-- The ranks that an operand may have. -/
inductive RankDemand where
  /-- no axes -/
  | scalar
  /-- at least one axis -/
  | axes
  deriving DecidableEq, Repr

namespace RankDemand

/-- The demand as messages spell it. -/
def text : RankDemand → String
  | scalar => "rank 0"
  | axes => "rank 1 or more"

end RankDemand

/-- Why an expression has no value. -/
inductive EvalError where
  /-- a variable is read before anything was stored in it -/
  | undefinedVariable (name : Char)
  /-- a value is stored under a name that is no variable -/
  | invalidVariable (name : Char)
  /-- operands that must have one shape have two -/
  | shapeMismatch (verb : Verb) (left right : Shape)
  /-- an operand's elements are of the wrong kind -/
  | kindMismatch (verb : Verb) (expected got : Kind)
  /-- an operand has the wrong number of axes -/
  | rankMismatch (verb : Verb) (expected : RankDemand) (got : Nat)
  /-- a cell is asked for beyond the first axis -/
  | indexOutOfBounds (index : Element) (length : Nat)
  /-- an axis length is negative -/
  | negativeLength (verb : Verb) (length : Element)
  /-- a shape has more axes than arrays have -/
  | rankTooHigh (rank : Nat)
  /-- elements are wanted from an array that has none -/
  | emptySource
  /-- a sum or an element count is out of range -/
  | overflow (verb : Verb)
  /-- the verb has no meaning of this valence -/
  | unimplemented (verb : Verb) (valence : Valence)
  deriving DecidableEq, Repr

namespace EvalError

/-- The cause in words. -/
def message : EvalError → String
  | undefinedVariable name => "undefined variable: " ++ String.singleton name
  | invalidVariable name => "invalid variable name: " ++ Text.quoted name
  | shapeMismatch verb left right =>
    "shape mismatch in '" ++ verb.text ++ "': " ++ left.text ++ " vs " ++ right.text
  | kindMismatch verb expected got =>
    "kind mismatch in '" ++ verb.text ++ "': expected " ++ expected.text ++ ", got " ++ got.text
  | rankMismatch verb expected got =>
    "rank mismatch in '" ++ verb.text ++ "': expected " ++ expected.text ++ ", got rank "
      ++ got.repr
  | indexOutOfBounds index length =>
    "index " ++ index.text ++ " out of bounds for axis of length " ++ length.repr
  | negativeLength verb length =>
    "negative length " ++ length.text ++ " in '" ++ verb.text ++ "'"
  | rankTooHigh rank => "rank " ++ rank.repr ++ " exceeds the maximum rank " ++ maxRank.repr
  | emptySource => "cannot reshape an empty array into a non-empty shape"
  | overflow verb => "integer overflow in '" ++ verb.text ++ "'"
  | unimplemented verb valence => valence.text ++ " '" ++ verb.text ++ "' is not implemented"

end EvalError

end ArrayLang
