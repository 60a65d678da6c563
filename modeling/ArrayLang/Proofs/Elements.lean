import ArrayLang.Value.Elements
import ArrayLang.Value.Checked

set_option autoImplicit false

/-!
# Moving elements about

Tiling, slicing and appending rows of elements give rows of a known length whose
elements all come from the rows they were made of.  A property of the elements
is therefore kept by all three, whatever the kind.
-/

namespace ArrayLang

namespace Shape

/-! ## Running products -/

/-- Multiplying on from a product below the bound succeeds exactly when every
further product stays below it. -/
theorem foldlM_timesAxis?_eq_some_iff (s : Shape) {running : Nat} (hrunning : running < countBound)
    (n : Nat) :
    s.foldlM timesAxis? running = some n ↔
      n = running * count s ∧ ∀ k, running * count (s.take k) < countBound := by
  induction s generalizing running with
  | nil => simp [eq_comm, hrunning]
  | cons m rest ih =>
    rw [List.foldlM_cons]
    by_cases hm : running * m < countBound
    · simp only [timesAxis?, if_pos hm, Option.bind_eq_bind, Option.bind_some, ih hm, count_cons,
        Nat.mul_assoc]
      constructor
      · rintro ⟨rfl, hk⟩
        refine ⟨rfl, ?_⟩
        intro k
        cases k with
        | zero => simpa using hrunning
        | succ k => simpa using hk k
      · rintro ⟨rfl, hk⟩
        exact ⟨rfl, fun k => by simpa using hk (k + 1)⟩
    · simp only [timesAxis?, if_neg hm, Option.bind_eq_bind, Option.bind_none]
      constructor
      · intro h
        cases h
      · rintro ⟨-, hk⟩
        exact absurd (by simpa using hk 1) hm

/-- The bounded count is the count, given exactly when no running product reaches
the bound. -/
theorem boundedCount?_eq_some_iff (s : Shape) (n : Nat) :
    boundedCount? s = some n ↔ n = count s ∧ ∀ k, count (s.take k) < countBound := by
  have hone : 1 < countBound := by decide
  simpa [boundedCount?] using foldlM_timesAxis?_eq_some_iff s hone n

/-- Whether a shape fits is decided by counting under the bound. -/
instance : DecidablePred Fits := fun s =>
  decidable_of_iff (s.rank ≤ maxRank ∧ (boundedCount? s).isSome = true) (by
    rw [Option.isSome_iff_exists]
    constructor
    · rintro ⟨hrank, n, hn⟩
      exact ⟨hrank, ((boundedCount?_eq_some_iff s n).1 hn).2⟩
    · rintro ⟨hrank, hrunning⟩
      exact ⟨hrank, count s, (boundedCount?_eq_some_iff s _).2 ⟨rfl, hrunning⟩⟩)

/-- Below a first axis that is not empty, no running product is larger. -/
theorem Fits.tail {n : Nat} {rest : Shape} (h : Fits (n :: rest)) (hn : 0 < n) : Fits rest := by
  obtain ⟨hrank, hrunning⟩ := h
  refine ⟨Nat.le_of_succ_le hrank, ?_⟩
  intro k
  calc count (rest.take k) ≤ n * count (rest.take k) := Nat.le_mul_of_pos_left _ hn
    _ = count ((n :: rest).take (k + 1)) := rfl
    _ < countBound := hrunning (k + 1)

theorem Fits.count_lt {s : Shape} (h : Fits s) : count s < countBound := by
  simpa using h.2 s.length

theorem fits_nil : Fits [] := by decide

/-- The shape of a vector asks for nothing but a length below the bound. -/
theorem fits_singleton_iff (n : Nat) : Fits [n] ↔ n < countBound := by
  constructor
  · intro h
    simpa using h.count_lt
  · intro hn
    refine ⟨Nat.le_of_ble_eq_true rfl, ?_⟩
    intro k
    cases k with
    | zero =>
      have hone : 1 < countBound := by decide
      exact hone
    | succ k => simpa using hn

end Shape

theorem mem_of_mem_cyclic {α : Type} {items : List α} {n : Nat} {x : α}
    (h : x ∈ cyclic items n) : x ∈ items := by
  obtain ⟨row, hrow, hx⟩ := List.mem_flatten.1 (List.mem_of_mem_take h)
  rwa [List.eq_of_mem_replicate hrow] at hx

namespace Elements

/-! ## Lengths -/

theorem length_of_tile?_eq_some {e f : Elements} {n : Nat} (h : e.tile? n = some f) :
    f.length = n := by
  unfold tile? at h
  split at h
  · cases h
  · rename_i hne
    cases e with
    | plain items | boxed items =>
      cases h
      apply length_cyclic
      by_cases hn : n = 0
      · exact Or.inl hn
      · refine Or.inr fun hnil => hne ⟨Nat.pos_of_ne_zero hn, ?_⟩
        simp [length, hnil]

theorem slice?_isSome_iff (e : Elements) (start length : Nat) :
    (e.slice? start length).isSome = true ↔ start + length ≤ e.length := by
  unfold slice?
  split
  · rename_i h
    cases e <;> simp [h]
  · rename_i h
    simp [h]

theorem length_of_slice?_eq_some {e f : Elements} {start length : Nat}
    (h : e.slice? start length = some f) : f.length = length := by
  unfold slice? at h
  split at h
  · rename_i hle
    cases e with
    | plain items | boxed items =>
      cases h
      simp only [Elements.length] at hle ⊢
      rw [List.length_take, List.length_drop]
      omega
  · cases h

/-! ## Contents -/

/-- Every integer has the one property, every boxed array the other. -/
def All (P : Element → Prop) (Q : Value → Prop) : Elements → Prop
  | plain items => ∀ x ∈ items, P x
  | boxed items => ∀ v ∈ items, Q v

variable {P : Element → Prop} {Q : Value → Prop}

theorem All.of_tile?_eq_some {e f : Elements} {n : Nat} (he : e.All P Q)
    (h : e.tile? n = some f) : f.All P Q := by
  unfold tile? at h
  split at h
  · cases h
  · cases e with
    | plain items | boxed items =>
      cases h
      exact fun x hx => he x (mem_of_mem_cyclic hx)

theorem All.of_slice?_eq_some {e f : Elements} {start length : Nat} (he : e.All P Q)
    (h : e.slice? start length = some f) : f.All P Q := by
  unfold slice? at h
  split at h
  · cases e with
    | plain items | boxed items =>
      cases h
      exact fun x hx => he x (List.mem_of_mem_drop (List.mem_of_mem_take hx))
  · cases h

theorem All.of_append?_eq_some {e f g : Elements} (he : e.All P Q) (hf : f.All P Q)
    (h : e.append? f = some g) : g.All P Q := by
  unfold append? at h
  split at h
  · cases h
    exact fun x hx => (List.mem_append.1 hx).elim (he x) (hf x)
  · cases h
    exact fun v hv => (List.mem_append.1 hv).elim (he v) (hf v)
  · cases h

end Elements

end ArrayLang
