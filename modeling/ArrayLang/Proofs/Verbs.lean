import ArrayLang.Proofs.Elements
import ArrayLang.Verb.Meaning
import Mathlib.Data.List.Forall2

set_option autoImplicit false

/-!
# When a verb succeeds, and how it fails

One equivalence for each verb that can fail: it gives a value exactly when its
operands meet the stated conditions, and the value is the stated one.  No verb
fails because of a name, and only a negative integer in an operand fails as a
length.  Proofs about verbs use these facts and do not open the definitions again.
-/

namespace ArrayLang

/-! ## Steps that may fail -/

section Bind

variable {ε α β : Type}

theorem bind_eq_ok_iff (x : Except ε α) (f : α → Except ε β) (b : β) :
    (x >>= f) = .ok b ↔ ∃ a, x = .ok a ∧ f a = .ok b := by
  cases x <;> simp [bind, Except.bind]

theorem bind_eq_error_iff (x : Except ε α) (f : α → Except ε β) (e : ε) :
    (x >>= f) = .error e ↔ x = .error e ∨ ∃ a, x = .ok a ∧ f a = .error e := by
  cases x <;> simp [bind, Except.bind]

theorem option_mapM_eq_some_iff (f : α → Option β) (xs : List α) (ys : List β) :
    xs.mapM f = some ys ↔ List.Forall₂ (fun x y => f x = some y) xs ys := by
  induction xs generalizing ys with
  | nil => simp [List.forall₂_nil_left_iff]
  | cons x xs ih =>
    simp only [List.mapM_cons, Option.bind_eq_bind, Option.bind_eq_some_iff, ih,
      List.forall₂_cons_left_iff]
    constructor
    · rintro ⟨y, hy, tail, htail, h⟩
      cases h
      exact ⟨y, tail, hy, htail, rfl⟩
    · rintro ⟨y, tail, hy, htail, rfl⟩
      exact ⟨y, hy, tail, htail, rfl⟩

theorem except_mapM_eq_ok_iff (f : α → Except ε β) (xs : List α) (ys : List β) :
    xs.mapM f = .ok ys ↔ List.Forall₂ (fun x y => f x = .ok y) xs ys := by
  induction xs generalizing ys with
  | nil => simp [List.forall₂_nil_left_iff, pure, Except.pure]
  | cons x xs ih =>
    simp only [List.mapM_cons, bind_eq_ok_iff, ih, List.forall₂_cons_left_iff]
    constructor
    · rintro ⟨y, hy, tail, htail, h⟩
      cases h
      exact ⟨y, tail, hy, htail, rfl⟩
    · rintro ⟨y, tail, hy, htail, rfl⟩
      exact ⟨y, hy, tail, htail, rfl⟩

theorem exists_of_forall₂_of_mem {R : α → β → Prop} {xs : List α} {ys : List β}
    (h : List.Forall₂ R xs ys) {y : β} (hy : y ∈ ys) : ∃ x ∈ xs, R x y := by
  induction h with
  | nil => cases hy
  | @cons x z xs ys hxz _ ih =>
    rcases List.mem_cons.1 hy with rfl | hy
    · exact ⟨x, List.mem_cons_self, hxz⟩
    · obtain ⟨x', hx', hR⟩ := ih hy
      exact ⟨x', List.mem_cons_of_mem x hx', hR⟩

theorem except_mapM_error {f : α → Except ε β} {xs : List α} {e : ε}
    (h : xs.mapM f = .error e) : ∃ x ∈ xs, f x = .error e := by
  induction xs with
  | nil => cases h
  | cons x xs ih =>
    rw [List.mapM_cons, bind_eq_error_iff] at h
    rcases h with hx | ⟨y, -, h⟩
    · exact ⟨x, List.mem_cons_self, hx⟩
    · rw [bind_eq_error_iff] at h
      rcases h with htail | ⟨ys, -, h⟩
      · obtain ⟨z, hz, hfail⟩ := ih htail
        exact ⟨z, List.mem_cons_of_mem x hz, hfail⟩
      · cases h

end Bind

namespace Element

/-- An element is an axis length exactly when it is that natural number. -/
theorem toLength?_eq_some_iff (n : Element) (k : Nat) : n.toLength? = some k ↔ n.toInt = k := by
  unfold toLength?
  split
  · rename_i hneg
    rw [Int64.lt_iff_toInt_lt, Int64.toInt_zero] at hneg
    constructor
    · intro h
      cases h
    · intro h
      omega
  · rename_i hnonneg
    rw [Int64.lt_iff_toInt_lt, Int64.toInt_zero] at hnonneg
    rw [Option.some.injEq]
    omega

theorem lt_lengthBound_of_toInt {n : Element} {k : Nat} (h : n.toInt = k) : k < lengthBound := by
  have hlt := n.toInt_lt
  unfold lengthBound
  omega

end Element

namespace Verb

/-! ## Operands -/

theorem integers_eq_ok_iff (verb : Verb) (v : Value) (xs : List Element) :
    integers verb v = .ok xs ↔ v = .plain v.shape xs := by
  cases v with
  | plain shape items => simp [integers, Value.shape]
  | boxed shape items => simp [integers]

theorem integer_eq_ok_iff (verb : Verb) (v : Value) (n : Element) :
    integer verb v = .ok n ↔ v.toInteger? = some n := by
  rw [integer, bind_eq_ok_iff]
  constructor
  · rintro ⟨xs, -, h⟩
    split at h
    · rename_i m hm
      cases h
      exact hm
    · cases h
  · intro h
    obtain ⟨items, rfl⟩ : ∃ items, v = .plain [] (n :: items) := by
      unfold Value.toInteger? at h
      split at h
      · cases h
        exact ⟨_, rfl⟩
      · cases h
    exact ⟨n :: items, rfl, rfl⟩

theorem axisLength_eq_ok_iff (verb : Verb) (n : Element) (k : Nat) :
    axisLength verb n = .ok k ↔ n.toInt = k := by
  rw [← Element.toLength?_eq_some_iff, axisLength]
  cases n.toLength? <;> simp

end Verb

namespace Value

/-! ## The verbs -/

theorem iota_eq_ok_iff (w v : Value) :
    w.iota = .ok v ↔
      ∃ (n : Element) (length : Nat), w.toInteger? = some n ∧ n.toInt = length ∧
        v = vector ((List.range length).map Element.ofLength) := by
  simp only [iota, bind_eq_ok_iff, Verb.integer_eq_ok_iff, Verb.axisLength_eq_ok_iff]
  constructor
  · rintro ⟨n, hn, length, hlength, h⟩
    cases h
    exact ⟨n, length, hn, hlength, rfl⟩
  · rintro ⟨n, length, hn, hlength, rfl⟩
    exact ⟨n, hn, length, hlength, rfl⟩

theorem plus_eq_ok_iff (a w v : Value) :
    a.plus w = .ok v ↔
      ∃ (s : Shape) (xs ys sums : List Element), a = .plain s xs ∧ w = .plain s ys ∧
        List.Forall₂ (fun p z => Element.add? p.1 p.2 = some z) (xs.zip ys) sums ∧
        v = .plain s sums := by
  simp only [plus, bind_eq_ok_iff, Verb.integers_eq_ok_iff]
  constructor
  · rintro ⟨xs, ha, ys, hw, h⟩
    split at h
    · cases h
    · rename_i hshape
      split at h
      · rename_i sums hsums
        cases h
        rw [ne_eq, Decidable.not_not] at hshape
        refine ⟨a.shape, xs, ys, sums, ha, ?_, (option_mapM_eq_some_iff _ _ _).1 hsums, rfl⟩
        rw [hshape]
        exact hw
      · cases h
  · rintro ⟨s, xs, ys, sums, rfl, rfl, hsums, rfl⟩
    refine ⟨xs, rfl, ys, rfl, ?_⟩
    rw [if_neg (by simp [shape])]
    simp only [(option_mapM_eq_some_iff _ _ _).2 hsums, shape]

theorem select_eq_ok_iff (a w v : Value) :
    a.select w = .ok v ↔
      ∃ (n : Element) (length : Nat) (rest : Shape) (i : Nat) (cell : Elements),
        a.toInteger? = some n ∧ w.shape = length :: rest ∧ n.toInt = i ∧ i < length ∧
          w.elements.slice? (i * rest.count) rest.count = some cell ∧
          v = ofElements rest cell := by
  simp only [select, bind_eq_ok_iff, Verb.integer_eq_ok_iff]
  constructor
  · rintro ⟨n, hn, h⟩
    split at h
    · cases h
    · rename_i length rest hshape
      split at h
      · cases h
      · rename_i i hi
        split at h
        · rename_i hlt
          split at h
          · rename_i cell hcell
            cases h
            exact ⟨n, length, rest, i, cell, hn, hshape,
              (Element.toLength?_eq_some_iff n i).1 hi, hlt, hcell, rfl⟩
          · cases h
        · cases h
  · rintro ⟨n, length, rest, i, cell, hn, hshape, hi, hlt, hcell, rfl⟩
    refine ⟨n, hn, ?_⟩
    rw [hshape]
    simp only [(Element.toLength?_eq_some_iff n i).2 hi, if_pos hlt, hcell]

theorem reshape_eq_ok_iff (a w v : Value) :
    a.reshape w = .ok v ↔
      ∃ (s : Shape) (lengths : List Element) (shape : Shape) (elements : Elements),
        a = .plain s lengths ∧
          List.Forall₂ (fun (n : Element) (k : Nat) => n.toInt = k) lengths shape ∧ shape.Fits ∧
          w.elements.tile? shape.count = some elements ∧ v = ofElements shape elements := by
  simp only [reshape, bind_eq_ok_iff, Verb.integers_eq_ok_iff, except_mapM_eq_ok_iff,
    Verb.axisLength_eq_ok_iff]
  constructor
  · rintro ⟨lengths, ha, shape, hshape, h⟩
    split at h
    · cases h
    · rename_i hrank
      split at h
      · cases h
      · rename_i count hcount
        obtain ⟨rfl, hrunning⟩ := (Shape.boundedCount?_eq_some_iff shape count).1 hcount
        split at h
        · cases h
        · rename_i elements helements
          cases h
          exact ⟨a.shape, lengths, shape, elements, ha, hshape,
            ⟨Nat.le_of_not_lt hrank, hrunning⟩, helements, rfl⟩
  · rintro ⟨s, lengths, shape, elements, rfl, hshape, ⟨hrank, hrunning⟩, helements, rfl⟩
    refine ⟨lengths, rfl, shape, hshape, ?_⟩
    have hcount := (Shape.boundedCount?_eq_some_iff shape _).2 ⟨rfl, hrunning⟩
    rw [if_neg (Nat.not_lt.2 hrank)]
    simp only [hcount, helements]

theorem catenate_eq_ok_iff (a w v : Value) :
    a.catenate w = .ok v ↔
      ∃ elements : Elements, a.elements.append? w.elements = some elements ∧
        v = ofElements [elements.length] elements := by
  unfold catenate
  cases a.elements.append? w.elements with
  | some elements => simp [eq_comm]
  | none => simp

end Value

/-! ## Failures -/

namespace EvalError

/-- The cause lies in the kind, the shape or the size of operands, or in the verb
itself: neither in a name nor in a negative length. -/
def isStructural : EvalError → Bool
  | undefinedVariable _ | invalidVariable _ | negativeLength _ _ => false
  | shapeMismatch _ _ _ | kindMismatch _ _ _ | rankMismatch _ _ _ | indexOutOfBounds _ _
  | rankTooHigh _ | emptySource | overflow _ | unimplemented _ _ => true

end EvalError

namespace Verb

theorem integers_error {verb : Verb} {v : Value} {e : EvalError}
    (h : integers verb v = .error e) : e.isStructural = true := by
  cases v with
  | plain shape items => cases h
  | boxed shape items =>
    cases h
    rfl

theorem integer_error {verb : Verb} {v : Value} {e : EvalError}
    (h : integer verb v = .error e) : e.isStructural = true := by
  rw [integer, bind_eq_error_iff] at h
  rcases h with h | ⟨xs, -, h⟩
  · exact integers_error h
  · split at h
    · cases h
    · cases h
      rfl

theorem axisLength_error {verb : Verb} {n : Element} {e : EvalError}
    (h : axisLength verb n = .error e) : e = .negativeLength verb n ∧ n.toInt < 0 := by
  unfold axisLength at h
  split at h
  · cases h
  · rename_i hnone
    cases h
    refine ⟨rfl, ?_⟩
    unfold Element.toLength? at hnone
    split at hnone
    · rename_i hneg
      rwa [Int64.lt_iff_toInt_lt, Int64.toInt_zero] at hneg
    · cases hnone

end Verb

namespace Value

theorem iota_error {w : Value} {e : EvalError} (h : w.iota = .error e) :
    e.isStructural = true ∨
      ∃ n, e = .negativeLength .tilde n ∧ w.toInteger? = some n ∧ n.toInt < 0 := by
  rw [iota, bind_eq_error_iff] at h
  rcases h with h | ⟨n, hn, h⟩
  · exact Or.inl (Verb.integer_error h)
  · rw [bind_eq_error_iff] at h
    rcases h with h | ⟨length, -, h⟩
    · obtain ⟨he, hneg⟩ := Verb.axisLength_error h
      exact Or.inr ⟨n, he, (Verb.integer_eq_ok_iff _ _ _).1 hn, hneg⟩
    · cases h

theorem plus_error {a w : Value} {e : EvalError} (h : a.plus w = .error e) :
    e.isStructural = true := by
  simp only [plus, bind_eq_error_iff] at h
  rcases h with h | ⟨xs, -, h | ⟨ys, -, h⟩⟩
  · exact Verb.integers_error h
  · exact Verb.integers_error h
  · split at h
    · cases h
      rfl
    · split at h
      · cases h
      · cases h
        rfl

theorem select_error {a w : Value} {e : EvalError} (h : a.select w = .error e) :
    e.isStructural = true := by
  rw [select, bind_eq_error_iff] at h
  rcases h with h | ⟨n, -, h⟩
  · exact Verb.integer_error h
  · split at h
    · cases h
      rfl
    · split at h
      · cases h
        rfl
      · split at h
        · split at h
          · cases h
          · cases h
            rfl
        · cases h
          rfl

theorem reshape_error {a w : Value} {e : EvalError} (h : a.reshape w = .error e) :
    e.isStructural = true ∨
      ∃ (s : Shape) (lengths : List Element) (n : Element), e = .negativeLength .hash n ∧
        a = .plain s lengths ∧ n ∈ lengths ∧ n.toInt < 0 := by
  rw [reshape, bind_eq_error_iff] at h
  rcases h with h | ⟨lengths, hlengths, h⟩
  · exact Or.inl (Verb.integers_error h)
  · rw [bind_eq_error_iff] at h
    rcases h with h | ⟨shape, -, h⟩
    · obtain ⟨n, hn, hfail⟩ := except_mapM_error h
      obtain ⟨he, hneg⟩ := Verb.axisLength_error hfail
      exact Or.inr ⟨a.shape, lengths, n, he, (Verb.integers_eq_ok_iff _ _ _).1 hlengths, hn, hneg⟩
    · left
      split at h
      · cases h
        rfl
      · split at h
        · cases h
          rfl
        · split at h
          · cases h
            rfl
          · cases h

theorem catenate_error {a w : Value} {e : EvalError} (h : a.catenate w = .error e) :
    e.isStructural = true := by
  unfold catenate at h
  split at h
  · cases h
  · cases h
    rfl

end Value

end ArrayLang
