import ArrayLang.Proofs.Verbs

set_option autoImplicit false

/-!
# Operands combined two at a time

A verb with two operands combines any number of them, at least one, once it is said which are
combined first.  A grouping is a tree that says so; its operands, from left to right, are what
is left of it when the parentheses are forgotten.
-/

namespace ArrayLang

/-- Operands with parentheses around pairs of them. -/
inductive Grouping where
  /-- one operand by itself -/
  | operand (v : Value)
  /-- what two groupings come to, combined -/
  | pair (left right : Grouping)

namespace Grouping

/-- The operands, from left to right. -/
def operands : Grouping → List Value
  | operand v => [v]
  | pair left right => left.operands ++ right.operands

/-- Apply the dyadic meaning of a verb at every pair, on the right first. -/
def combine (verb : Verb) : Grouping → Except EvalError Value
  | operand v => .ok v
  | pair left right => do
    let w ← right.combine verb
    let a ← left.combine verb
    verb.dyadic a w

theorem operands_ne_nil (g : Grouping) : g.operands ≠ [] := by
  induction g with
  | operand v => simp [operands]
  | pair left right ihleft _ => simp [operands, ihleft]

theorem combine_pair_eq_ok_iff (verb : Verb) (left right : Grouping) (v : Value) :
    (pair left right).combine verb = .ok v ↔
      ∃ a w, left.combine verb = .ok a ∧ right.combine verb = .ok w ∧ verb.dyadic a w = .ok v := by
  simp only [combine, bind_eq_ok_iff]
  constructor
  · rintro ⟨w, hw, a, ha, h⟩
    exact ⟨a, w, ha, hw, h⟩
  · rintro ⟨a, w, ha, hw, h⟩
    exact ⟨w, hw, a, ha, h⟩

end Grouping

end ArrayLang
