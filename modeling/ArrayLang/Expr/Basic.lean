import ArrayLang.Slot
import ArrayLang.Verb.Basic

set_option autoImplicit false

/-!
# Expressions

The tree of one line.  Names are arbitrary characters and numerals arbitrary
bytes, so there are more trees than readable lines.  `Expr.text` writes a tree
without blanks.
-/

namespace ArrayLang

/-- What a line says. -/
inductive Expr where
  /-- a numeral -/
  | noun (value : UInt8)
  /-- the value of a variable -/
  | var (name : Char)
  /-- an expression in parentheses -/
  | group (inner : Expr)
  /-- a verb and its one operand -/
  | monad (verb : Verb) (right : Expr)
  /-- a verb between its two operands -/
  | dyad (verb : Verb) (left right : Expr)
  /-- a value stored in a variable -/
  | assign (name : Char) (value : Expr)
  deriving DecidableEq, Repr, Inhabited

namespace Expr

/-- The tree written out, without blanks. -/
def text : Expr → String
  | noun value => value.toNat.repr
  | var name => String.singleton name
  | group inner => "(" ++ inner.text ++ ")"
  | monad verb right => verb.text ++ right.text
  | dyad verb left right => left.text ++ verb.text ++ right.text
  | assign name value => String.singleton name ++ "=" ++ value.text

/-! ## Expressions that can be written

A tree is *canonical* when a line can say it: numerals are single digits, names
are variables, and the left operand of a verb is a numeral, a variable or a
group.  Its nesting is the number of expressions that wait for their right end
while its deepest part is read. -/

/-- The expression can stand to the left of a verb. -/
def IsOperand : Expr → Prop
  | noun _ | var _ | group _ => True
  | monad _ _ | dyad _ _ _ | assign _ _ => False

instance (e : Expr) : Decidable e.IsOperand := by
  cases e <;> unfold IsOperand <;> infer_instance

/-- The tree is that of some line. -/
def Canonical : Expr → Prop
  | noun value => value ≤ 9
  | var name => Slot.isName name = true
  | group inner => inner.Canonical
  | monad _ right => right.Canonical
  | dyad _ left right => left.IsOperand ∧ left.Canonical ∧ right.Canonical
  | assign name value => Slot.isName name = true ∧ value.Canonical

/-- Whether a tree is canonical is decided by one walk over it. -/
def decCanonical : (e : Expr) → Decidable e.Canonical
  | noun value => inferInstanceAs (Decidable (value ≤ 9))
  | var name => inferInstanceAs (Decidable (Slot.isName name = true))
  | group inner => inner.decCanonical
  | monad _ right => right.decCanonical
  | dyad _ left right =>
    have := left.decCanonical
    have := right.decCanonical
    inferInstanceAs (Decidable (left.IsOperand ∧ left.Canonical ∧ right.Canonical))
  | assign name value =>
    have := value.decCanonical
    inferInstanceAs (Decidable (Slot.isName name = true ∧ value.Canonical))

instance : DecidablePred Canonical := decCanonical

/-- How many expressions wait at once while the line is read. -/
def nesting : Expr → Nat
  | noun _ | var _ => 0
  | group inner => 1 + inner.nesting
  | monad _ right => 1 + right.nesting
  | dyad _ left right => max left.nesting (1 + right.nesting)
  | assign _ value => 1 + value.nesting

end Expr

end ArrayLang
