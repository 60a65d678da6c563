import ArrayLang.Environment
import Mathlib.Data.List.Dedup
import Mathlib.Data.List.Induction

set_option autoImplicit false

/-!
# Variables hold what was last assigned

An environment is changed by assignments and by clearing it.  However long the history
of its changes, it is a finite map from letters to values: a letter holds the latest of
its assignments since the last clearing, and no other character ever holds anything.
Looking up a name, listing the variables and counting them all show this one map.
-/

namespace ArrayLang

namespace Slot

/-! ## Letters -/

/-- One of the letters `a` to `z`. -/
def IsLetter (c : Char) : Prop := 'a' ≤ c ∧ c ≤ 'z'

instance : DecidablePred IsLetter := fun _ => inferInstanceAs (Decidable (_ ∧ _))

theorem isName_iff_isLetter (c : Char) : isName c = true ↔ IsLetter c := by
  have hcode : IsLetter c ↔ 97 ≤ c.toNat ∧ c.toNat ≤ 122 := Iff.rfl
  rw [hcode, isName, ofChar?]
  split
  · rename_i h
    simp only [slotCount] at h
    simp only [Option.isSome_some, true_iff]
    omega
  · rename_i h
    simp only [slotCount] at h
    simp only [Option.isSome_none, Bool.false_eq_true, false_iff]
    omega

theorem toNat_toChar (s : Slot) : s.toChar.toNat = 97 + s.val := by
  revert s
  decide

/-- Letters are in the order of their variables. -/
theorem toChar_lt_toChar {s t : Slot} (h : s < t) : s.toChar < t.toChar := by
  have hcode : s.toChar < t.toChar ↔ s.toChar.toNat < t.toChar.toNat := Iff.rfl
  rw [hcode, toNat_toChar, toNat_toChar]
  exact Nat.add_lt_add_left h 97

end Slot

open Slot (IsLetter)

namespace Environment

/-! ## Listing and counting -/

theorem mem_toList_iff (env : Environment) (name : Char) (value : Value) :
    (name, value) ∈ env.toList ↔ env.get? name = some value := by
  rw [toList, List.mem_filterMap]
  constructor
  · rintro ⟨slot, -, hslot⟩
    obtain ⟨held, hheld, heq⟩ := Option.map_eq_some_iff.1 hslot
    cases heq
    rw [get?, Slot.ofChar?_toChar]
    exact hheld
  · intro h
    unfold get? at h
    split at h
    · rename_i slot hslot
      obtain rfl := (Slot.ofChar?_eq_some_iff name slot).1 hslot
      exact ⟨slot, List.mem_finRange slot, Option.map_eq_some_iff.2 ⟨value, h, rfl⟩⟩
    · cases h

theorem pairwise_toList (env : Environment) :
    env.toList.Pairwise fun binding later => binding.1 < later.1 := by
  rw [toList, List.pairwise_filterMap]
  refine (List.pairwise_lt_finRange slotCount).imp ?_
  intro s t hst binding hbinding later hlater
  obtain ⟨_, -, rfl⟩ := Option.map_eq_some_iff.1 hbinding
  obtain ⟨_, -, rfl⟩ := Option.map_eq_some_iff.1 hlater
  exact Slot.toChar_lt_toChar hst

theorem length_toList (env : Environment) : env.toList.length = env.size := by
  rw [toList, List.length_filterMap_eq_countP, size]
  simp only [Option.isSome_map]

theorem nodup_names (env : Environment) : (env.toList.map Prod.fst).Nodup := by
  rw [List.Nodup, List.pairwise_map]
  exact env.pairwise_toList.imp fun h => Char.ne_of_lt h

/-- No character but a letter holds a value. -/
theorem get?_of_not_isLetter {name : Char} (h : ¬ IsLetter name) (env : Environment) :
    env.get? name = none := by
  have hnone : Slot.ofChar? name = none := by
    rw [← Slot.isName_iff_isLetter, Slot.isName] at h
    simpa using h
  rw [get?, hnone]

/-! ## Finite maps -/

/-- In every way in which it can be looked at, the environment shows the map with these
bindings, in which a name is bound to the first of its values. -/
structure ShowsMap (env : Environment) (bindings : List (Char × Value)) : Prop where
  get?_eq : ∀ name, env.get? name = bindings.lookup name
  get?_eq_none : ∀ name, ¬ IsLetter name → env.get? name = none
  contains_iff : ∀ name, env.contains name = true ↔ ∃ value, env.get? name = some value
  mem_toList : ∀ name value, (name, value) ∈ env.toList ↔ env.get? name = some value
  toList_sorted : env.toList.Pairwise fun binding later => binding.1 < later.1
  size_eq : env.size = (bindings.map Prod.fst).dedup.length

/-- What the names hold decides all the rest. -/
theorem showsMap_of_get? {env : Environment} {bindings : List (Char × Value)}
    (h : ∀ name, env.get? name = bindings.lookup name) : env.ShowsMap bindings where
  get?_eq := h
  get?_eq_none _ hname := get?_of_not_isLetter hname env
  contains_iff _ := Option.isSome_iff_exists
  mem_toList := env.mem_toList_iff
  toList_sorted := env.pairwise_toList
  size_eq := by
    have hnames (name : Char) :
        name ∈ env.toList.map Prod.fst ↔ name ∈ (bindings.map Prod.fst).dedup := by
      have hbound : (bindings.lookup name).isSome = true ↔ name ∈ bindings.map Prod.fst := by
        simp only [List.lookup_isSome_iff, List.mem_map, beq_iff_eq, @eq_comm _ name]
      rw [List.mem_dedup, ← hbound, ← h name, Option.isSome_iff_exists, List.mem_map]
      constructor
      · rintro ⟨⟨_, value⟩, hmem, rfl⟩
        exact ⟨value, (env.mem_toList_iff _ value).1 hmem⟩
      · rintro ⟨value, hvalue⟩
        exact ⟨(name, value), (env.mem_toList_iff name value).2 hvalue, rfl⟩
    -- Two lists of the same names without repetition have one length.
    have hperm := (List.perm_ext_iff_of_nodup env.nodup_names (List.nodup_dedup _)).2 hnames
    rw [← env.length_toList, ← hperm.length_eq, List.length_map]

/-! ## Changes -/

/-- What changes an environment. -/
inductive Change where
  /-- store a value under a name -/
  | assign (name : Char) (value : Value)
  /-- empty every variable -/
  | clear
  deriving DecidableEq, Repr

/-- Make a change: whether it could be made, and the environment afterwards. -/
def change (env : Environment) : Change → Except EvalError Unit × Environment
  | .assign name value =>
    match env.assign name value with
    | .ok next => (.ok (), next)
    | .error cause => (.error cause, env)
  | .clear => (.ok (), empty)

/-- A new environment after changes made in order. -/
def afterChanges (changes : List Change) : Environment :=
  changes.foldl (fun env c => (env.change c).2) empty

theorem afterChanges_concat (changes : List Change) (c : Change) :
    afterChanges (changes ++ [c]) = ((afterChanges changes).change c).2 := by
  rw [afterChanges, List.foldl_concat]
  rfl

theorem change_assign_of_not_isLetter {name : Char} (h : ¬ IsLetter name) (env : Environment)
    (value : Value) :
    env.change (.assign name value) = (.error (.invalidVariable name), env) := by
  rw [← Slot.isName_iff_isLetter, Bool.not_eq_true] at h
  rw [change, assign_of_not_isName h]

theorem change_assign_of_isLetter {name : Char} (h : IsLetter name) (env : Environment)
    (value : Value) :
    ∃ next, env.change (.assign name value) = (.ok (), next) ∧
      ∀ other, next.get? other = if other = name then some value else env.get? other := by
  obtain ⟨next, hnext⟩ := exists_assign ((Slot.isName_iff_isLetter name).2 h) env value
  exact ⟨next, by rw [change, hnext], get?_of_assign hnext⟩

/-! ## The bindings that stand -/

/-- What a change binds: an assignment of a letter, and nothing else. -/
def Change.binding? : Change → Option (Char × Value)
  | assign name value => if IsLetter name then some (name, value) else none
  | clear => none

/-- The assignments of letters since the last clearing, the latest first. -/
def standing (changes : List Change) : List (Char × Value) :=
  (changes.reverse.takeWhile (· ≠ .clear)).filterMap Change.binding?

theorem standing_concat_clear (changes : List Change) : standing (changes ++ [.clear]) = [] := by
  simp [standing]

theorem standing_concat_assign (changes : List Change) (name : Char) (value : Value) :
    standing (changes ++ [.assign name value]) =
      if IsLetter name then (name, value) :: standing changes else standing changes := by
  by_cases h : IsLetter name <;> simp [standing, Change.binding?, h]

/-- If the names hold what stands, they do so after one more change. -/
theorem get?_change {env : Environment} {changes : List Change}
    (h : ∀ name, env.get? name = (standing changes).lookup name) (c : Change) (name : Char) :
    (env.change c).2.get? name = (standing (changes ++ [c])).lookup name := by
  cases c with
  | clear =>
    rw [standing_concat_clear]
    exact get?_empty name
  | assign assigned value =>
    rw [standing_concat_assign]
    by_cases hletter : IsLetter assigned
    · obtain ⟨next, hchange, hget⟩ := change_assign_of_isLetter hletter env value
      rw [hchange, hget, if_pos hletter, List.lookup_cons, h]
      by_cases hname : name = assigned
      · rw [if_pos hname, beq_iff_eq.2 hname]
      · rw [if_neg hname, beq_false_of_ne hname]
    · rw [change_assign_of_not_isLetter hletter, if_neg hletter]
      exact h name

/-- A name holds the latest of its bindings that stand. -/
theorem get?_afterChanges (changes : List Change) (name : Char) :
    (afterChanges changes).get? name = (standing changes).lookup name := by
  induction changes using List.reverseRecOn generalizing name with
  | nil => exact get?_empty name
  | append_singleton changes c ih =>
    rw [afterChanges_concat]
    exact get?_change ih c name

/-- After any changes, the environment shows the map of the bindings that stand.  The next
assignment fails, and then leaves all as it is, exactly when its name is not a letter. -/
theorem environment_shows_last_assignments (changes : List Change) :
    (afterChanges changes).ShowsMap (standing changes) ∧
    ∀ name value,
      ((afterChanges changes).change (.assign name value) =
        (.error (.invalidVariable name), afterChanges changes) ↔ ¬ IsLetter name) ∧
      (((afterChanges changes).change (.assign name value)).1 = .ok () ↔ IsLetter name) := by
  refine ⟨showsMap_of_get? (get?_afterChanges changes), ?_⟩
  intro name value
  by_cases h : IsLetter name
  · obtain ⟨next, hchange, -⟩ := change_assign_of_isLetter h (afterChanges changes) value
    rw [hchange]
    simp [h]
  · rw [change_assign_of_not_isLetter h]
    simp [h]

end Environment

end ArrayLang
