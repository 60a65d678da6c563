import ArrayLang.EvalError
import ArrayLang.Slot

set_option autoImplicit false

/-!
# Environments

An environment holds a value, or none yet, for each of the 26 variables.  Names
that are no variable hold nothing and cannot be assigned.
-/

namespace ArrayLang

/-- What the variables hold. -/
structure Environment where
  /-- one entry for each variable, in alphabetical order -/
  slots : Vector (Option Value) slotCount
  deriving DecidableEq, Repr

namespace Environment

/-- No variable holds a value. -/
def empty : Environment := ⟨Vector.replicate slotCount none⟩

instance : Inhabited Environment := ⟨empty⟩

/-- The value stored under a name. -/
def get? (env : Environment) (name : Char) : Option Value :=
  match Slot.ofChar? name with
  | some slot => env.slots[slot]
  | none => none

/-- Store a value under a name, in place of what was there. -/
def assign (env : Environment) (name : Char) (value : Value) : Except EvalError Environment :=
  match Slot.ofChar? name with
  | some slot => .ok ⟨env.slots.set slot (some value)⟩
  | none => .error (.invalidVariable name)

/-- The name holds a value. -/
def contains (env : Environment) (name : Char) : Bool := (env.get? name).isSome

/-- The variables that hold a value, in alphabetical order. -/
def toList (env : Environment) : List (Char × Value) :=
  (List.finRange slotCount).filterMap fun slot =>
    env.slots[slot].map fun value => (Slot.toChar slot, value)

/-- The number of variables that hold a value. -/
def size (env : Environment) : Nat :=
  (List.finRange slotCount).countP fun slot => env.slots[slot].isSome

/-- No variable holds a value. -/
def isEmpty (env : Environment) : Bool := env.size == 0

@[simp] theorem get?_empty (name : Char) : empty.get? name = none := by
  unfold get?
  split <;> simp [empty]

/-- Whether an assignment succeeds depends on the name alone: a value can be stored
under every variable. -/
theorem exists_assign {name : Char} (h : Slot.isName name = true) (env : Environment)
    (value : Value) : ∃ next, env.assign name value = .ok next := by
  obtain ⟨slot, hslot⟩ := Option.isSome_iff_exists.1 h
  exact ⟨⟨env.slots.set slot (some value)⟩, by rw [assign, hslot]⟩

theorem assign_of_not_isName {name : Char} (h : Slot.isName name = false) (env : Environment)
    (value : Value) : env.assign name value = .error (.invalidVariable name) := by
  have hnone : Slot.ofChar? name = none := by simpa [Slot.isName] using h
  rw [assign, hnone]

/-- An assignment is seen under its own name and nowhere else. -/
theorem get?_of_assign {env next : Environment} {name : Char} {value : Value}
    (h : env.assign name value = .ok next) (other : Char) :
    next.get? other = if other = name then some value else env.get? other := by
  unfold assign at h
  split at h
  · rename_i slot hslot
    cases h
    rw [Slot.ofChar?_eq_some_iff] at hslot
    subst hslot
    by_cases ho : other = slot.toChar
    · subst ho
      simp [get?]
    · rw [if_neg ho]
      unfold get?
      split
      · rename_i s hs
        have hne : slot ≠ s := by
          rintro rfl
          exact ho ((Slot.ofChar?_eq_some_iff other slot).1 hs)
        simp only [Fin.getElem_fin]
        rw [Vector.getElem_set_ne]
        intro e
        exact hne (Fin.ext e)
      · rfl
  · cases h

end Environment

end ArrayLang
