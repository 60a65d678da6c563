import ArrayLang.Proofs.Reshape
import Mathlib.Algebra.BigOperators.Ring.List
import Mathlib.Algebra.Order.Ring.Int
import Mathlib.Data.List.TakeWhile

set_option autoImplicit false

/-!
# The order of the axes and the bound on counts

The count that a new shape asks for is computed from the left and must stay below the bound on
the way, not only at the end.  An axis of length zero makes the count zero, but the axes before
it are multiplied first.  So a shape without elements may be refused for its size, and the same
axes in another order be accepted.  Where no axis is empty, or the others by themselves stay
below the bound, the order of the axes does not matter.
-/

namespace ArrayLang

namespace Element

/-! ## The numbers before the first zero -/

/-- The numbers before the first zero; all of them if none is zero. -/
def beforeZero (ns : List Element) : List Element := ns.takeWhile (· ≠ 0)

theorem isPrefix_beforeZero (ns : List Element) : beforeZero ns <+: ns :=
  List.takeWhile_prefix _

theorem zero_notMem_beforeZero (ns : List Element) : 0 ∉ beforeZero ns := by
  intro h
  simpa using List.mem_takeWhile_imp h

theorem beforeZero_append {ns : List Element} (h : 0 ∉ ns) (ms : List Element) :
    beforeZero (ns ++ ms) = ns ++ beforeZero ms := by
  apply List.takeWhile_append_of_pos
  intro n hn
  simpa using ne_of_mem_of_not_mem hn h

theorem beforeZero_eq_self {ns : List Element} (h : 0 ∉ ns) : beforeZero ns = ns := by
  simpa [beforeZero] using beforeZero_append h []

/-! ## Products of lengths -/

theorem product_append (ns ms : List Element) :
    product (ns ++ ms) = product ns * product ms := by
  simp [product]

theorem product_perm {ns ms : List Element} (h : ns.Perm ms) : product ns = product ms :=
  (h.map Int64.toInt).prod_eq

theorem product_eq_zero_iff (ns : List Element) : product ns = 0 ↔ 0 ∈ ns := by
  rw [product, List.prod_eq_zero_iff, List.mem_map]
  constructor
  · rintro ⟨n, hn, hzero⟩
    rwa [Int64.toInt_inj.1 (hzero.trans Int64.toInt_zero.symm)] at hn
  · intro h
    exact ⟨0, h, Int64.toInt_zero⟩

theorem zero_notMem_of_countBound_le {ns : List Element} (h : (countBound : Int) ≤ product ns) :
    0 ∉ ns := by
  intro hzero
  rw [(product_eq_zero_iff ns).2 hzero] at h
  exact absurd h (by decide)

/-- More numbers that are not zero make no product smaller. -/
theorem product_le_product_append {ns ms : List Element} (hns : ∀ n ∈ ns, 0 ≤ n.toInt)
    (hms : ∀ n ∈ ms, 0 ≤ n.toInt) (hzero : 0 ∉ ms) : product ns ≤ product (ns ++ ms) := by
  have hne := mt (product_eq_zero_iff ms).1 hzero
  have hone : 1 ≤ product ms := by
    rw [product_eq_count hms] at hne ⊢
    omega
  rw [product_append, product_eq_count hns]
  exact le_mul_of_one_le_right (Int.natCast_nonneg _) hone

/-- Up to the first zero, products grow. -/
theorem product_le_product_beforeZero {ns ms : List Element}
    (h : ∀ n ∈ ns ++ ms, 0 ≤ n.toInt) (hzero : 0 ∉ ns) :
    product ns ≤ product (beforeZero (ns ++ ms)) := by
  obtain ⟨hns, hms⟩ := List.forall_mem_append.1 h
  rw [beforeZero_append hzero]
  refine product_le_product_append hns ?_ (zero_notMem_beforeZero ms)
  intro n hn
  exact hms n ((isPrefix_beforeZero ms).subset hn)

/-- From the first zero on all running products are zero, and up to there they grow. -/
theorem exists_runningProducts_iff_beforeZero {ns : List Element}
    (h : ∀ n ∈ ns, 0 ≤ n.toInt) :
    (∃ p ∈ runningProducts ns, (countBound : Int) ≤ p) ↔
      (countBound : Int) ≤ product (beforeZero ns) := by
  simp only [runningProducts, List.mem_map, List.mem_inits]
  constructor
  · rintro ⟨p, ⟨first, ⟨rest, rfl⟩, rfl⟩, hp⟩
    exact Int.le_trans hp (product_le_product_beforeZero h (zero_notMem_of_countBound_le hp))
  · intro hp
    exact ⟨_, ⟨_, isPrefix_beforeZero ns, rfl⟩, hp⟩

/-- The numbers other than zero. -/
def nonzero (ns : List Element) : List Element := ns.filter (· ≠ 0)

theorem zero_notMem_nonzero (ns : List Element) : 0 ∉ nonzero ns := by
  simp [nonzero]

theorem exists_nonzero_append_perm (ns : List Element) :
    ∃ zeros, (nonzero ns ++ zeros).Perm ns :=
  ⟨_, List.filter_append_perm _ ns⟩

theorem nonzero_eq_self {ns : List Element} (h : 0 ∉ ns) : nonzero ns = ns := by
  rw [nonzero, List.filter_eq_self]
  intro n hn
  simpa using ne_of_mem_of_not_mem hn h

theorem product_beforeZero_le {ns : List Element} (h : ∀ n ∈ ns, 0 ≤ n.toInt) :
    product (beforeZero ns) ≤ product (nonzero ns) := by
  obtain ⟨rest, hrest⟩ := isPrefix_beforeZero ns
  have hsplit : nonzero ns = beforeZero ns ++ nonzero rest := by
    conv_lhs => rw [← hrest]
    rw [nonzero, List.filter_append]
    exact congrArg (· ++ nonzero rest) (nonzero_eq_self (zero_notMem_beforeZero ns))
  have hmem (n : Element) (hn : n ∈ beforeZero ns ++ nonzero rest) : 0 ≤ n.toInt := by
    rw [← hsplit] at hn
    exact h n (List.mem_of_mem_filter hn)
  obtain ⟨hfirst, hlast⟩ := List.forall_mem_append.1 hmem
  rw [hsplit]
  exact product_le_product_append hfirst hlast (zero_notMem_nonzero rest)

/-- The order of the numbers does not matter to the bound if there is no zero among them, or
if without the zeros they stay below it. -/
theorem countBound_le_beforeZero_perm {ns ms : List Element} (hperm : ms.Perm ns)
    (h : ∀ n ∈ ns, 0 ≤ n.toInt) (hsafe : 0 ∉ ns ∨ product (nonzero ns) < countBound) :
    (countBound : Int) ≤ product (beforeZero ms) ↔
      (countBound : Int) ≤ product (beforeZero ns) := by
  rcases hsafe with hzero | hbelow
  · rw [beforeZero_eq_self hzero, beforeZero_eq_self (mt hperm.mem_iff.1 hzero),
      product_perm hperm]
  · have hms : ∀ n ∈ ms, 0 ≤ n.toInt := fun n hn => h n (hperm.mem_iff.1 hn)
    have hsame : product (nonzero ms) = product (nonzero ns) := product_perm (hperm.filter _)
    have hfirst := product_beforeZero_le h
    have hsecond := product_beforeZero_le hms
    omega

end Element

/-! ## Reshapes to the same axes in another order -/

namespace Value

section Order

variable {lengths : List Element} (hrank : lengths.length ≤ maxRank)
  (hlengths : ∀ n ∈ lengths, 0 ≤ n.toInt)

include hrank hlengths

theorem reshape_eq_overflow_iff (s : Shape) (w : Value) :
    (plain s lengths).reshape w = .error (.overflow .hash) ↔
      (countBound : Int) ≤ Element.product (Element.beforeZero lengths) := by
  rw [reshape_of_nonneg hlengths, if_neg (Nat.not_lt.2 hrank),
    ← Element.exists_runningProducts_iff_beforeZero hlengths]
  split_ifs with hover hsource
  · simp [hover]
  · simp [hover]
  · simp [hover]

theorem reshape_error_perm {others : List Element} (hperm : others.Perm lengths)
    (hsafe : 0 ∉ lengths ∨ Element.product (Element.nonzero lengths) < countBound) (s t : Shape)
    (w : Value) (cause : EvalError) :
    (plain t others).reshape w = .error cause ↔ (plain s lengths).reshape w = .error cause := by
  have hothers : ∀ n ∈ others, 0 ≤ n.toInt := fun n hn => hlengths n (hperm.mem_iff.1 hn)
  have hbound := Element.countBound_le_beforeZero_perm hperm hlengths hsafe
  rw [← Element.exists_runningProducts_iff_beforeZero hlengths,
    ← Element.exists_runningProducts_iff_beforeZero hothers] at hbound
  rw [reshape_of_nonneg hothers, reshape_of_nonneg hlengths, hperm.length_eq,
    Element.product_perm hperm, if_neg (Nat.not_lt.2 hrank), if_neg (Nat.not_lt.2 hrank)]
  by_cases hover : ∃ p ∈ Element.runningProducts lengths, (countBound : Int) ≤ p
  · rw [if_pos hover, if_pos (hbound.2 hover)]
  · rw [if_neg hover, if_neg (mt hbound.1 hover)]
    split_ifs <;> simp

/-- If there is a zero, and the other lengths reach the bound, then the lengths with the zeros
last overflow, and with the zeros first they do not. -/
theorem exists_perm_overflow (hzero : 0 ∈ lengths)
    (hbound : (countBound : Int) ≤ Element.product (Element.nonzero lengths)) (s : Shape)
    (w : Value) :
    (∃ others, others.Perm lengths ∧ (plain s others).reshape w = .error (.overflow .hash)) ∧
    ∃ others, others.Perm lengths ∧ (plain s others).reshape w ≠ .error (.overflow .hash) := by
  have hoverflow {others : List Element} (hperm : others.Perm lengths) :
      (plain s others).reshape w = .error (.overflow .hash) ↔
        (countBound : Int) ≤ Element.product (Element.beforeZero others) :=
    reshape_eq_overflow_iff (hperm.length_eq ▸ hrank)
      (fun n hn => hlengths n (hperm.mem_iff.1 hn)) s w
  refine ⟨?_, ?_⟩
  · -- All other lengths are multiplied before the first zero.
    obtain ⟨zeros, hperm⟩ := Element.exists_nonzero_append_perm lengths
    refine ⟨_, hperm, (hoverflow hperm).2 (Int.le_trans hbound ?_)⟩
    apply Element.product_le_product_beforeZero
    · intro n hn
      exact hlengths n (hperm.mem_iff.1 hn)
    · exact Element.zero_notMem_nonzero lengths
  · -- No length is multiplied before the first zero.
    have hperm := (List.perm_cons_erase hzero).symm
    refine ⟨_, hperm, mt (hoverflow hperm).1 ?_⟩
    have hnone : Element.beforeZero (0 :: lengths.erase 0) = [] := by simp [Element.beforeZero]
    rw [hnone]
    decide

end Order

end Value

/-- A shape of at most `maxRank` axes overflows exactly if its count reaches the bound, or if
it has an empty axis and the axes before the first such one reach it.  Whether a reshape
succeeds, and for which cause it fails, is the same for every order of the axes exactly if no
axis is empty or the others by themselves stay below the bound. -/
theorem overflow_of_axes_before_first_empty (s : Shape) (lengths : List Element) (w : Value)
    (hrank : lengths.length ≤ maxRank) (hlengths : ∀ n ∈ lengths, 0 ≤ n.toInt) :
    ((Value.plain s lengths).reshape w = .error (.overflow .hash) ↔
      (countBound : Int) ≤ Element.product lengths ∨
        0 ∈ lengths ∧ (countBound : Int) ≤ Element.product (Element.beforeZero lengths)) ∧
    ((∀ t others, others.Perm lengths → ∀ cause,
        (Value.plain t others).reshape w = .error cause ↔
          (Value.plain s lengths).reshape w = .error cause) ↔
      0 ∉ lengths ∨ Element.product (Element.nonzero lengths) < countBound) := by
  refine ⟨?_, ?_, ?_⟩
  · rw [Value.reshape_eq_overflow_iff hrank hlengths]
    by_cases hzero : 0 ∈ lengths
    · have hempty := mt Element.zero_notMem_of_countBound_le (not_not_intro hzero)
      simp only [hempty, hzero, true_and, false_or]
    · simp only [Element.beforeZero_eq_self hzero, hzero, false_and, or_false]
  · intro hsame
    by_contra hunsafe
    rw [not_or, not_not, Int.not_lt] at hunsafe
    obtain ⟨⟨first, hfirst, hover⟩, second, hsecond, hnot⟩ :=
      Value.exists_perm_overflow hrank hlengths hunsafe.1 hunsafe.2 s w
    exact hnot ((hsame s second hsecond _).2 ((hsame s first hfirst _).1 hover))
  · intro hsafe t others hperm cause
    exact Value.reshape_error_perm hrank hlengths hperm hsafe s t w cause

/-- The largest elements around an axis of length two: the order does not matter, and the count
overflows.  With an empty axis behind two that reach the bound the count overflows too, with
the empty axis before them it does not, and so the order matters. -/
theorem overflow_of_three_axes_in_any_order :
    ((Value.vector [9223372036854775807, 2, 9223372036854775807]).reshape (.scalar 7) =
        .error (.overflow .hash) ∧
      ∀ t others, others.Perm [9223372036854775807, 2, 9223372036854775807] → ∀ cause,
        (Value.plain t others).reshape (.scalar 7) = .error cause ↔
          (Value.vector [9223372036854775807, 2, 9223372036854775807]).reshape (.scalar 7) =
            .error cause) ∧
    (Value.vector [8589934592, 4294967296, 0]).reshape (.scalar 7) = .error (.overflow .hash) ∧
    (Value.vector [0, 8589934592, 4294967296]).reshape (.scalar 7) ≠ .error (.overflow .hash) ∧
    ¬∀ t others, others.Perm [8589934592, 4294967296, 0] → ∀ cause,
      (Value.plain t others).reshape (.scalar 7) = .error cause ↔
        (Value.vector [8589934592, 4294967296, 0]).reshape (.scalar 7) = .error cause := by
  have hlengths (a b c : Element) (h : 0 ≤ a.toInt ∧ 0 ≤ b.toInt ∧ 0 ≤ c.toInt) :
      ∀ n ∈ [a, b, c], 0 ≤ n.toInt := by
    rw [List.forall_mem_cons, List.forall_mem_cons, List.forall_mem_singleton]
    exact h
  obtain ⟨hover, horder⟩ :=
    overflow_of_axes_before_first_empty [3] [9223372036854775807, 2, 9223372036854775807]
      (.scalar 7) (by decide) (hlengths _ _ _ (by decide))
  obtain ⟨hoverBehind, horderBehind⟩ :=
    overflow_of_axes_before_first_empty [3] [8589934592, 4294967296, 0]
      (.scalar 7) (by decide) (hlengths _ _ _ (by decide))
  obtain ⟨hoverBefore, -⟩ :=
    overflow_of_axes_before_first_empty [3] [0, 8589934592, 4294967296]
      (.scalar 7) (by decide) (hlengths _ _ _ (by decide))
  refine ⟨⟨hover.2 (Or.inl (by decide)), horder.2 (Or.inl (by decide))⟩, ?_, ?_, ?_⟩
  · exact hoverBehind.2 (Or.inr ⟨by decide, by decide⟩)
  · exact mt hoverBefore.1 (by decide)
  · exact mt horderBehind.1 (by decide)

/-- A shape without elements that is refused for its size, and the same axes in an order in
which they are accepted. -/
theorem overflow_without_elements :
    ¬((Value.vector [4294967296, 4294967296, 0]).reshape (.scalar 7) = .error (.overflow .hash) ↔
      (countBound : Int) ≤ Element.product [4294967296, 4294967296, 0]) ∧
    [(0 : Element), 4294967296, 4294967296].Perm [4294967296, 4294967296, 0] ∧
    (Value.vector [4294967296, 4294967296, 0]).reshape (.scalar 7) = .error (.overflow .hash) ∧
    (Value.vector [0, 4294967296, 4294967296]).reshape (.scalar 7) =
      .ok (.plain [0, 4294967296, 4294967296] []) := by
  have hover : (Value.vector [4294967296, 4294967296, 0]).reshape (.scalar 7) =
      .error (.overflow .hash) := by rfl
  refine ⟨?_, by decide, hover, by rfl⟩
  intro h
  exact absurd (h.1 hover) (by decide)

end ArrayLang
