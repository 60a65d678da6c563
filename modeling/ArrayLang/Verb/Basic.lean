set_option autoImplicit false

/-!
# Verbs

A verb is written as a single character.  It has a monadic meaning, applied to
the operand on its right alone, and a dyadic meaning, applied to the operands on
both sides; not every verb has both.
-/

namespace ArrayLang

/-- The verbs, named for the characters that write them. -/
inductive Verb where
  /-- `+` -/
  | plus
  /-- `{` -/
  | brace
  /-- `~` -/
  | tilde
  /-- `<` -/
  | less
  /-- `#` -/
  | hash
  /-- `,` -/
  | comma
  deriving DecidableEq, Repr, Inhabited

/-- How many operands a verb is applied to. -/
inductive Valence where
  /-- the right operand alone -/
  | monadic
  /-- a left and a right operand -/
  | dyadic
  deriving DecidableEq, Repr, Inhabited

namespace Valence

/-- The valence as messages spell it. -/
def text : Valence → String
  | monadic => "monadic"
  | dyadic => "dyadic"

end Valence

namespace Verb

/-- All verbs, in the order of their table. -/
def all : List Verb := [.plus, .brace, .tilde, .less, .hash, .comma]

/-- The character that writes the verb. -/
def glyph : Verb → Char
  | plus => '+'
  | brace => '\x7b'
  | tilde => '~'
  | less => '<'
  | hash => '#'
  | comma => ','

/-- The verb that a character writes. -/
def ofChar? (c : Char) : Option Verb := all.find? fun v => v.glyph == c

/-- The verb's place in the table, from zero. -/
def index (v : Verb) : Nat := all.idxOf v

/-- The character of the verb as a text. -/
def text (v : Verb) : String := String.singleton v.glyph

/-- The name of each meaning; `(none)` where there is no name. -/
def name : Verb → Valence → String
  | plus, .monadic => "identity"
  | plus, .dyadic => "plus"
  | brace, .monadic => "size"
  | brace, .dyadic => "from"
  | tilde, .monadic => "iota"
  | tilde, .dyadic => "find"
  | less, .monadic => "box"
  | less, .dyadic => "(none)"
  | hash, .monadic => "shape"
  | hash, .dyadic => "reshape"
  | comma, .monadic => "(none)"
  | comma, .dyadic => "catenate"

@[simp] theorem ofChar?_glyph (v : Verb) : ofChar? v.glyph = some v := by
  cases v <;> rfl

/-- A character writes at most one verb, and each verb by its own character. -/
theorem ofChar?_eq_some_iff (c : Char) (v : Verb) : ofChar? c = some v ↔ c = v.glyph := by
  constructor
  · intro h
    have found := List.find?_some (p := fun v : Verb => v.glyph == c) h
    exact (beq_iff_eq.1 found).symm
  · rintro rfl
    exact ofChar?_glyph v

end Verb

end ArrayLang
