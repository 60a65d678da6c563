set_option autoImplicit false

/-!
# Variables

There are 26 variables, the letters `a` to `z`.  A slot is a variable by its
place in the alphabet; names are characters, and most characters name none.
-/

namespace ArrayLang

/-- The number of variables. -/
def slotCount : Nat := 26

/-- A variable, by its place in the alphabet. -/
abbrev Slot := Fin slotCount

namespace Slot

/-- The variable that a character names, if it is one of the letters. -/
def ofChar? (c : Char) : Option Slot :=
  if h : 97 ≤ c.toNat ∧ c.toNat < 97 + slotCount then
    some ⟨c.toNat - 97, by omega⟩
  else none

/-- The letter of a variable. -/
def toChar (s : Slot) : Char := Char.ofNat (97 + s.val)

/-- The character names a variable. -/
def isName (c : Char) : Bool := (ofChar? c).isSome

@[simp] theorem ofChar?_toChar (s : Slot) : ofChar? s.toChar = some s := by
  revert s
  decide

/-- A character names a variable exactly when it is that variable's letter. -/
theorem ofChar?_eq_some_iff (c : Char) (s : Slot) : ofChar? c = some s ↔ c = s.toChar := by
  constructor
  · intro h
    unfold ofChar? at h
    split at h
    · rename_i hr
      cases h
      have : 97 + (c.toNat - 97) = c.toNat := by omega
      simp [toChar, this]
    · cases h
  · rintro rfl
    exact ofChar?_toChar s

end Slot

end ArrayLang
