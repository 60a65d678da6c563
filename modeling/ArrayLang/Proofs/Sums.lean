import ArrayLang.Proofs.Groupings
import ArrayLang.Proofs.WellFormedness
import Mathlib.Algebra.Order.BigOperators.Group.List
import Mathlib.Algebra.Order.Ring.Int
import Mathlib.Data.List.GetD

set_option autoImplicit false

/-!
# Sums in any order and grouping

An addition is refused if one of its sums is not an element, so adding in another order may in
general fail where the first one did not.  Where no integer is negative that cannot happen: the
sums of some of the operands are never larger than the sums of all of them.  The sum of arrays
is therefore described without saying how it is computed, and every grouping of the operands
gives it, or none does.
-/

namespace ArrayLang

namespace Element

theorem add?_eq_some_iff (x y z : Element) :
    add? x y = some z ↔ z.toInt = x.toInt + y.toInt := by
  constructor
  · exact toInt_of_add?_eq_some
  · intro h
    have hrange : Int64.minValue.toInt ≤ x.toInt + y.toInt ∧
        x.toInt + y.toInt ≤ Int64.maxValue.toInt := by
      rw [← h]
      exact ⟨Int64.minValue_le_toInt z, Int64.toInt_le z⟩
    have hsum : add? x y = some (x + y) := if_pos hrange
    rw [hsum, Option.some.injEq, ← Int64.toInt_inj, toInt_of_add?_eq_some hsum, h]

/-- Numbers are added one by one exactly if the results are their sums at every place, where
past the end there are zeros. -/
theorem forall₂_add?_iff {xs ys sums : List Element} (hxs : xs.length = sums.length)
    (hys : ys.length = sums.length) :
    List.Forall₂ (fun p z => add? p.1 p.2 = some z) (xs.zip ys) sums ↔
      ∀ i, (sums.getD i 0).toInt = (xs.getD i 0).toInt + (ys.getD i 0).toInt := by
  induction sums generalizing xs ys with
  | nil =>
    obtain rfl := List.length_eq_zero_iff.1 hxs
    obtain rfl := List.length_eq_zero_iff.1 hys
    simp
  | cons z sums ih =>
    obtain ⟨x, xs, rfl⟩ := List.exists_cons_of_length_eq_add_one hxs
    obtain ⟨y, ys, rfl⟩ := List.exists_cons_of_length_eq_add_one hys
    rw [List.zip_cons_cons, List.forall₂_cons, add?_eq_some_iff,
      ih (Nat.succ_inj.1 hxs) (Nat.succ_inj.1 hys)]
    constructor
    · rintro ⟨hfirst, hrest⟩ i
      cases i with
      | zero => exact hfirst
      | succ i => exact hrest i
    · intro h
      exact ⟨h 0, fun i => h (i + 1)⟩

end Element

namespace Value

/-! ## Integers by their place -/

/-- The integer at a place in row-major order; zero where there is none. -/
def integerAt (v : Value) (i : Nat) : Int :=
  match v with
  | plain _ items => (items.getD i 0).toInt
  | boxed _ _ => 0

theorem integerAt_of_le {v : Value} {i : Nat} (h : v.count ≤ i) : v.integerAt i = 0 := by
  cases v with
  | plain s items =>
    rw [integerAt, List.getD_eq_default items 0 h, Int64.toInt_zero]
  | boxed s items => rfl

theorem integerAt_le (v : Value) (i : Nat) : v.integerAt i ≤ Int64.maxValue.toInt := by
  cases v with
  | plain s items => exact Int64.toInt_le _
  | boxed s items =>
    rw [integerAt, Int64.toInt_maxValue]
    decide

theorem exists_eq_plain {v : Value} {s : Shape} (hkind : v.kind = .plain) (hshape : v.shape = s) :
    ∃ items, v = plain s items := by
  cases v with
  | plain t items => exact ⟨items, congrArg (plain · items) hshape⟩
  | boxed t items => cases hkind

/-- Plain arrays are equal if their shapes are, and their integers at every place. -/
theorem WellFormed.eq_of_integerAt {v w : Value} (hv : v.WellFormed) (hw : w.WellFormed)
    (hvkind : v.kind = .plain) (hwkind : w.kind = .plain) (hshape : v.shape = w.shape)
    (h : ∀ i, v.integerAt i = w.integerAt i) : v = w := by
  cases w with
  | boxed s items => cases hwkind
  | plain s ys =>
    obtain ⟨xs, rfl⟩ := exists_eq_plain hvkind hshape
    have hitems : xs = ys := by
      apply List.ext_getElem (hv.2.symm.trans hw.2)
      intro i hi hi'
      have hplace := Int64.toInt_inj.1 (h i)
      rwa [List.getD_eq_getElem _ _ hi, List.getD_eq_getElem _ _ hi'] at hplace
    rw [hitems, shape]

/-- The plain array of a shape that has the given integers at its places. -/
def ofIntegers (s : Shape) (f : Nat → Int) : Value :=
  .plain s ((List.range s.count).map fun i => Int64.ofInt (f i))

theorem integerAt_ofIntegers {s : Shape} {f : Nat → Int} {i : Nat} (hi : i < s.count)
    (hnonneg : 0 ≤ f i) (hle : f i ≤ Int64.maxValue.toInt) :
    (ofIntegers s f).integerAt i = f i := by
  rw [Int64.toInt_maxValue] at hle
  rw [ofIntegers, integerAt, List.getD_eq_getElem _ _ (by simpa using hi), List.getElem_map,
    List.getElem_range]
  exact Int64.toInt_ofInt_of_le (by omega) (by omega)

/-! ## Sums of arrays -/

/-- The sum of the integers that arrays have at a place. -/
def sumAt (vs : List Value) (i : Nat) : Int := (vs.map (integerAt · i)).sum

theorem sumAt_pair (a w : Value) (i : Nat) : sumAt [a, w] i = a.integerAt i + w.integerAt i := by
  simp [sumAt]

theorem sumAt_append (us vs : List Value) (i : Nat) :
    sumAt (us ++ vs) i = sumAt us i + sumAt vs i := by
  simp [sumAt]

theorem sumAt_perm {us vs : List Value} (h : us.Perm vs) (i : Nat) : sumAt us i = sumAt vs i :=
  (h.map _).sum_eq

theorem sumAt_of_le {vs : List Value} {i : Nat} (h : ∀ v ∈ vs, v.count ≤ i) : sumAt vs i = 0 := by
  apply List.sum_eq_zero
  intro n hn
  obtain ⟨v, hv, rfl⟩ := List.mem_map.1 hn
  exact integerAt_of_le (h v hv)

/-- The array `v` is the sum of plain arrays, all of its shape. -/
structure IsSum (vs : List Value) (v : Value) : Prop where
  wellFormed : v.WellFormed
  kind : v.kind = .plain
  operand : ∀ u ∈ vs, u.kind = .plain ∧ u.shape = v.shape
  integer : ∀ i, v.integerAt i = sumAt vs i

theorem IsSum.of_perm {us vs : List Value} {v : Value} (hperm : us.Perm vs) (h : IsSum us v) :
    IsSum vs v where
  wellFormed := h.wellFormed
  kind := h.kind
  operand u hu := h.operand u (hperm.mem_iff.2 hu)
  integer i := by rw [h.integer i, sumAt_perm hperm]

/-- The sum of two sums is the sum of all their operands. -/
theorem isSum_append_iff {us vs : List Value} {a w : Value} (ha : IsSum us a) (hw : IsSum vs w)
    (hus : us ≠ []) (hvs : vs ≠ []) (v : Value) : IsSum (us ++ vs) v ↔ IsSum [a, w] v := by
  have hsum (i : Nat) : sumAt (us ++ vs) i = sumAt [a, w] i := by
    rw [sumAt_append, ← ha.integer, ← hw.integer, sumAt_pair]
  constructor
  · intro h
    obtain ⟨u, hu⟩ := List.exists_mem_of_ne_nil us hus
    obtain ⟨u', hu'⟩ := List.exists_mem_of_ne_nil vs hvs
    refine ⟨h.wellFormed, h.kind, ?_, fun i => by rw [h.integer, hsum]⟩
    have hashape : a.shape = v.shape := by
      rw [← (ha.operand u hu).2, (h.operand u (List.mem_append_left vs hu)).2]
    have hwshape : w.shape = v.shape := by
      rw [← (hw.operand u' hu').2, (h.operand u' (List.mem_append_right us hu')).2]
    simp [ha.kind, hw.kind, hashape, hwshape]
  · intro h
    refine ⟨h.wellFormed, h.kind, ?_, fun i => by rw [h.integer, hsum]⟩
    have hashape := (h.operand a (by simp)).2
    have hwshape := (h.operand w (by simp)).2
    intro u hu
    rcases List.mem_append.1 hu with hu | hu
    · exact ⟨(ha.operand u hu).1, (ha.operand u hu).2.trans hashape⟩
    · exact ⟨(hw.operand u hu).1, (hw.operand u hu).2.trans hwshape⟩

theorem kind_of_plus {a w v : Value} (h : a.plus w = .ok v) :
    a.kind = .plain ∧ w.kind = .plain ∧ v.kind = .plain := by
  obtain ⟨s, xs, ys, sums, rfl, rfl, -, rfl⟩ := (plus_eq_ok_iff a w v).1 h
  exact ⟨rfl, rfl, rfl⟩

/-- An addition gives the sum of its operands, and succeeds if there is one. -/
theorem plus_eq_ok_iff_isSum {a w : Value} (ha : a.WellFormed) (hw : w.WellFormed) (v : Value) :
    a.plus w = .ok v ↔ IsSum [a, w] v := by
  constructor
  · intro h
    have hv := ha.plus hw h
    obtain ⟨s, xs, ys, sums, rfl, rfl, hsums, rfl⟩ := (plus_eq_ok_iff a w v).1 h
    refine ⟨hv, rfl, by simp [kind, shape], ?_⟩
    intro i
    rw [sumAt_pair]
    exact (Element.forall₂_add?_iff (ha.2.symm.trans hv.2) (hw.2.symm.trans hv.2)).1 hsums i
  · intro h
    obtain ⟨hakind, hashape⟩ := h.operand a (by simp)
    obtain ⟨hwkind, hwshape⟩ := h.operand w (by simp)
    have hv := h.wellFormed
    cases v with
    | boxed s items => cases h.kind
    | plain s sums =>
      obtain ⟨xs, rfl⟩ := exists_eq_plain hakind hashape
      obtain ⟨ys, rfl⟩ := exists_eq_plain hwkind hwshape
      rw [plus_eq_ok_iff]
      refine ⟨s, xs, ys, sums, rfl, rfl, ?_, rfl⟩
      rw [Element.forall₂_add?_iff (ha.2.symm.trans hv.2) (hw.2.symm.trans hv.2)]
      intro i
      have hplace := h.integer i
      rwa [sumAt_pair] at hplace

/-! ## When arrays have a sum -/

/-- All arrays are plain and of one shape, and their sums are elements. -/
structure Addable (vs : List Value) : Prop where
  kind : ∀ v ∈ vs, v.kind = .plain
  shape : ∀ v ∈ vs, ∀ w ∈ vs, v.shape = w.shape
  bound : ∀ i, sumAt vs i ≤ Int64.maxValue.toInt

/-- If the array is plain, it is well-formed and none of its integers is negative. -/
def NaturalIfPlain (v : Value) : Prop :=
  ∀ items, v.integers? = some items → v.WellFormed ∧ ∀ n ∈ items, 0 ≤ n.toInt

theorem NaturalIfPlain.wellFormed {v : Value} (h : v.NaturalIfPlain) (hkind : v.kind = .plain) :
    v.WellFormed := by
  cases v with
  | plain s items => exact (h items rfl).1
  | boxed s items => cases hkind

theorem NaturalIfPlain.nonneg {v : Value} (h : v.NaturalIfPlain) (i : Nat) :
    0 ≤ v.integerAt i := by
  by_cases hi : i < v.count
  · cases v with
    | plain s items =>
      rw [integerAt, List.getD_eq_getElem _ _ hi]
      exact (h items rfl).2 _ (List.getElem_mem hi)
    | boxed s items => exact Int.le_refl 0
  · rw [integerAt_of_le (Nat.le_of_not_lt hi)]

theorem NaturalIfPlain.isSum_singleton_iff {u : Value} (hu : u.NaturalIfPlain) (v : Value) :
    IsSum [u] v ↔ u = v ∧ v.kind = .plain := by
  have hsum (i : Nat) : sumAt [u] i = u.integerAt i := by simp [sumAt]
  constructor
  · intro h
    obtain ⟨hkind, hshape⟩ := h.operand u (by simp)
    refine ⟨?_, h.kind⟩
    apply (hu.wellFormed hkind).eq_of_integerAt h.wellFormed hkind h.kind hshape
    intro i
    rw [h.integer, hsum]
  · rintro ⟨rfl, hkind⟩
    exact ⟨hu.wellFormed hkind, hkind, by simp [hkind], fun i => (hsum i).symm⟩

section Naturals

variable {vs : List Value} (hvs : ∀ v ∈ vs, v.NaturalIfPlain)

include hvs

theorem nonneg_of_mem_map {i : Nat} : ∀ n ∈ vs.map (integerAt · i), 0 ≤ n := by
  intro n hn
  obtain ⟨v, hv, rfl⟩ := List.mem_map.1 hn
  exact (hvs v hv).nonneg i

/-- Some of the operands have a sum if all of them have one: it is nowhere larger. -/
theorem Addable.of_sublist {us : List Value} (hsub : us.Sublist vs) (h : Addable vs) :
    Addable us where
  kind v hv := h.kind v (hsub.mem hv)
  shape v hv w hw := h.shape v (hsub.mem hv) w (hsub.mem hw)
  bound i :=
    calc sumAt us i ≤ sumAt vs i := (hsub.map _).sum_le_sum (nonneg_of_mem_map hvs)
      _ ≤ Int64.maxValue.toInt := h.bound i

/-- Arrays without negative integers have a sum exactly if they are addable. -/
theorem exists_isSum_iff (hne : vs ≠ []) : (∃ v, IsSum vs v) ↔ Addable vs := by
  constructor
  · rintro ⟨v, h⟩
    refine ⟨fun u hu => (h.operand u hu).1, ?_, ?_⟩
    · intro u hu w hw
      rw [(h.operand u hu).2, (h.operand w hw).2]
    · intro i
      rw [← h.integer]
      exact integerAt_le v i
  · intro h
    obtain ⟨u, hu⟩ := List.exists_mem_of_ne_nil vs hne
    have hwell (v : Value) (hv : v ∈ vs) : v.WellFormed := (hvs v hv).wellFormed (h.kind v hv)
    have hsum : (ofIntegers u.shape (sumAt vs)).WellFormed :=
      (wellFormed_plain_iff _ _).2 ⟨(hwell u hu).elements.1, by simp⟩
    refine ⟨_, hsum, rfl, fun v hv => ⟨h.kind v hv, h.shape v hv u hu⟩, ?_⟩
    intro i
    by_cases hi : i < u.shape.count
    · exact integerAt_ofIntegers hi (List.sum_nonneg (nonneg_of_mem_map hvs)) (h.bound i)
    · have hle := Nat.le_of_not_lt hi
      rw [integerAt_of_le (hsum.count_eq ▸ hle), sumAt_of_le]
      intro v hv
      rwa [← (hwell v hv).count_eq, h.shape v hv u hu]

end Naturals

end Value

namespace Grouping

/-- Additions that come to a plain array come to the sum of the operands, and if the operands
have a sum the additions come to it. -/
theorem combine_plus_plain_iff (g : Grouping) (hg : ∀ v ∈ g.operands, v.NaturalIfPlain)
    (v : Value) :
    g.combine .plus = .ok v ∧ v.kind = .plain ↔ Value.IsSum g.operands v := by
  induction g generalizing v with
  | operand u =>
    rw [operands, (hg u (by simp [operands])).isSum_singleton_iff, combine, Except.ok.injEq]
  | pair left right ihleft ihright =>
    obtain ⟨hleft, hright⟩ := List.forall_mem_append.1 hg
    have happend {a w : Value} (ha : Value.IsSum left.operands a)
        (hw : Value.IsSum right.operands w) :
        a.plus w = .ok v ↔ Value.IsSum (left.operands ++ right.operands) v := by
      rw [Value.plus_eq_ok_iff_isSum ha.wellFormed hw.wellFormed,
        Value.isSum_append_iff ha hw left.operands_ne_nil right.operands_ne_nil]
    rw [combine_pair_eq_ok_iff, operands]
    constructor
    · rintro ⟨⟨a, w, ha, hw, hplus⟩, -⟩
      obtain ⟨hakind, hwkind, -⟩ := Value.kind_of_plus hplus
      exact (happend ((ihleft hleft a).1 ⟨ha, hakind⟩) ((ihright hright w).1 ⟨hw, hwkind⟩)).1 hplus
    · -- The sums on the left and on the right exist because they are nowhere larger than `v`.
      intro h
      have hall := (Value.exists_isSum_iff hg (operands_ne_nil (pair left right))).1 ⟨v, h⟩
      obtain ⟨a, ha⟩ := (Value.exists_isSum_iff hleft left.operands_ne_nil).2
        (hall.of_sublist hg (List.sublist_append_left _ _))
      obtain ⟨w, hw⟩ := (Value.exists_isSum_iff hright right.operands_ne_nil).2
        (hall.of_sublist hg (List.sublist_append_right _ _))
      exact ⟨⟨a, w, ((ihleft hleft a).2 ha).1, ((ihright hright w).2 hw).1, (happend ha hw).2 h⟩,
        h.kind⟩

/-- A grouping of at least two operands is summed exactly if they have a sum, and to it. -/
theorem combine_plus_eq_ok_iff (g : Grouping) (htwo : 2 ≤ g.operands.length)
    (hg : ∀ v ∈ g.operands, v.NaturalIfPlain) (v : Value) :
    g.combine .plus = .ok v ↔ Value.IsSum g.operands v := by
  rw [← g.combine_plus_plain_iff hg]
  refine ⟨fun h => ⟨h, ?_⟩, And.left⟩
  cases g with
  | operand u => exact absurd htwo (by simp [operands])
  | pair left right =>
    obtain ⟨a, w, -, -, hplus⟩ := (combine_pair_eq_ok_iff .plus left right v).1 h
    exact (Value.kind_of_plus hplus).2.2

end Grouping

/-- Two groupings of the same operands, at least two and in any order, have the same sum or both
none, if no plain operand has a negative integer.  They have one exactly if all operands are
plain and of one shape, and their integers have sums that are elements at every place; and it has
these sums. -/
theorem sums_independent_of_grouping {g h : Grouping} (hperm : g.operands.Perm h.operands)
    (htwo : 2 ≤ g.operands.length) (hg : ∀ v ∈ g.operands, v.NaturalIfPlain) :
    (∀ v, g.combine .plus = .ok v ↔ h.combine .plus = .ok v) ∧
    (∀ v, g.combine .plus = .ok v → Value.IsSum g.operands v) ∧
    ((∃ v, g.combine .plus = .ok v) ↔ Value.Addable g.operands) := by
  have hsum := g.combine_plus_eq_ok_iff htwo hg
  refine ⟨?_, fun v => (hsum v).1, ?_⟩
  · intro v
    rw [hsum, h.combine_plus_eq_ok_iff (hperm.length_eq ▸ htwo)
      fun u hu => hg u (hperm.mem_iff.2 hu)]
    exact ⟨Value.IsSum.of_perm hperm, Value.IsSum.of_perm hperm.symm⟩
  · simp only [hsum]
    exact Value.exists_isSum_iff hg g.operands_ne_nil

/-- The largest element is reached, but in no order passed. -/
theorem sums_independent_of_grouping_up_to_largest :
    (Grouping.pair (.operand (.vector [1, 3])) (.pair (.operand (.vector [9223372036854775804, 1]))
      (.operand (.vector [2, 2])))).combine .plus = .ok (.vector [9223372036854775807, 6]) ∧
    Value.Addable [.vector [9223372036854775804, 1], .vector [2, 2], .vector [1, 3]] := by
  have hsum : (Grouping.pair (.pair (.operand (.vector [9223372036854775804, 1]))
      (.operand (.vector [2, 2]))) (.operand (.vector [1, 3]))).combine .plus =
        .ok (.vector [9223372036854775807, 6]) := by rfl
  have hnatural {x y : Element} (hx : 0 ≤ x.toInt) (hy : 0 ≤ y.toInt) :
      (Value.vector [x, y]).NaturalIfPlain := by
    rintro items ⟨⟩
    exact ⟨Value.wellFormed_vector (by simp [countBound]), by simp [hx, hy]⟩
  obtain ⟨hsame, -, hwhen⟩ := sums_independent_of_grouping
    (g := .pair (.pair (.operand (.vector [9223372036854775804, 1])) (.operand (.vector [2, 2])))
      (.operand (.vector [1, 3])))
    (h := .pair (.operand (.vector [1, 3])) (.pair (.operand (.vector [9223372036854775804, 1]))
      (.operand (.vector [2, 2]))))
    (by decide) (by decide)
    (List.forall_mem_cons.2 ⟨hnatural (by decide) (by decide),
      List.forall_mem_cons.2 ⟨hnatural (by decide) (by decide),
        List.forall_mem_singleton.2 (hnatural (by decide) (by decide))⟩⟩)
  exact ⟨(hsame _).1 hsum, hwhen.1 ⟨_, hsum⟩⟩

example : (Grouping.pair (.pair (.operand (.scalar 9223372036854775807)) (.operand (.scalar 1)))
      (.operand (.scalar (-1)))).combine .plus = .error (.overflow .plus) ∧
    (Grouping.pair (.operand (.scalar 9223372036854775807)) (.pair (.operand (.scalar 1))
      (.operand (.scalar (-1))))).combine .plus = .ok (.scalar 9223372036854775807) :=
  ⟨by rfl, by rfl⟩

end ArrayLang
