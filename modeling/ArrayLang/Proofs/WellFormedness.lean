import ArrayLang.Proofs.Applications
import ArrayLang.Proofs.Verbs

set_option autoImplicit false

/-!
# Verbs and evaluations keep arrays well-formed

Every verb builds a well-formed array from well-formed operands.  The one thing
that is not checked anywhere is the length of a catenation, which has to be
representable: that is an assumption about the machine, made explicit as a bound
on what the applications of the comma build.  Well-formedness bounds the running
products of a shape and not only their last one, since a shape with an empty axis
may have huge axes beside it, and selecting a cell multiplies a part of the shape.
-/

namespace ArrayLang

namespace Value

/-! ## Arrays built from elements -/

/-- What the boxes hold is well-formed. -/
abbrev WellFormedInside (e : Elements) : Prop := e.All (fun _ => True) WellFormed

theorem wellFormed_ofElements_iff (s : Shape) (e : Elements) :
    (ofElements s e).WellFormed ↔ s.Fits ∧ s.count = e.length ∧ WellFormedInside e := by
  cases e with
  | plain items => simp [ofElements, wellFormed_plain_iff, Elements.length, Elements.All]
  | boxed items =>
    rw [WellFormed, ofElements, everywhere_boxed_iff, WellFormedHere, and_assoc]
    rfl

theorem WellFormed.elements {v : Value} (h : v.WellFormed) :
    v.shape.Fits ∧ v.shape.count = v.elements.length ∧ WellFormedInside v.elements := by
  rwa [← wellFormed_ofElements_iff, ofElements_elements]

instance : DecidablePred WellFormedHere := fun v =>
  inferInstanceAs (Decidable (v.shape.Fits ∧ v.shape.count = v.count))

instance : DecidablePred WellFormed := inferInstanceAs (DecidablePred (Everywhere WellFormedHere))

theorem wellFormed_scalar (n : Element) : (scalar n).WellFormed :=
  (wellFormed_plain_iff [] [n]).2 ⟨Shape.fits_nil, rfl⟩

theorem WellFormed.enclose {v : Value} (h : v.WellFormed) : v.enclose.WellFormed :=
  (everywhere_boxed_iff [] [v]).2 ⟨⟨Shape.fits_nil, rfl⟩, List.forall_mem_singleton.2 h⟩

theorem wellFormed_vector {items : List Element} (h : items.length < countBound) :
    (vector items).WellFormed :=
  (wellFormed_plain_iff _ items).2 ⟨(Shape.fits_singleton_iff _).2 h, by simp⟩

/-! ## Verbs -/

theorem wellFormed_iota {w v : Value} (h : w.iota = .ok v) : v.WellFormed := by
  obtain ⟨n, length, -, hn, rfl⟩ := (iota_eq_ok_iff w v).1 h
  apply wellFormed_vector
  have hlt := n.toInt_lt
  simp only [List.length_map, List.length_range, countBound]
  omega

theorem WellFormed.shapeVector {w : Value} (h : w.WellFormed) : w.shapeVector.WellFormed := by
  apply wellFormed_vector
  rw [List.length_map]
  calc w.shape.length ≤ maxRank := h.elements.1.1
    _ < countBound := by decide

theorem wellFormed_monadic {verb : Verb} {w v : Value} (hw : w.WellFormed)
    (h : verb.monadic w = .ok v) : v.WellFormed := by
  cases verb with
  | plus =>
    cases h
    exact hw
  | brace =>
    cases h
    exact wellFormed_scalar _
  | tilde => exact wellFormed_iota h
  | less =>
    cases h
    exact hw.enclose
  | hash =>
    cases h
    exact hw.shapeVector
  | comma => cases h

theorem WellFormed.plus {a w v : Value} (ha : a.WellFormed) (hw : w.WellFormed)
    (h : a.plus w = .ok v) : v.WellFormed := by
  obtain ⟨s, xs, ys, sums, rfl, rfl, hsums, rfl⟩ := (plus_eq_ok_iff a w v).1 h
  rw [wellFormed_plain_iff] at ha hw ⊢
  have hlength : sums.length = xs.length := by
    rw [← hsums.length_eq, List.length_zip, ← ha.2, ← hw.2, Nat.min_self]
  exact ⟨ha.1, by rw [hlength, ha.2]⟩

/-- The cells along the first axis lie within the elements. -/
theorem cell_end_le {w : Value} (hcount : w.shape.count = w.count) {length i : Nat} {rest : Shape}
    (hshape : w.shape = length :: rest) (hi : i < length) :
    i * rest.count + rest.count ≤ w.count := by
  calc i * rest.count + rest.count = (i + 1) * rest.count := (Nat.succ_mul _ _).symm
    _ ≤ length * rest.count := Nat.mul_le_mul_right _ hi
    _ = w.count := by rw [← hcount, hshape, Shape.count_cons]

/-- The cell at a position within the first axis lies within the elements, and
nothing on the way to it reaches the bound. -/
theorem WellFormed.cell {w : Value} (hw : w.WellFormed) {length i : Nat} {rest : Shape}
    (hshape : w.shape = length :: rest) (hi : i < length) :
    rest.Fits ∧ i * rest.count < countBound ∧
      i * rest.count + rest.count ≤ w.elements.length := by
  obtain ⟨hfits, hcount, -⟩ := hw.elements
  have hend : i * rest.count + rest.count ≤ w.elements.length := by
    rw [length_elements]
    exact cell_end_le hw.count_eq hshape hi
  rw [hshape] at hfits hcount
  refine ⟨hfits.tail (Nat.zero_lt_of_lt hi), ?_, hend⟩
  calc i * rest.count ≤ w.elements.length := Nat.le_trans (Nat.le_add_right _ _) hend
    _ = Shape.count (length :: rest) := hcount.symm
    _ < countBound := hfits.count_lt

theorem WellFormed.select {a w v : Value} (hw : w.WellFormed) (h : a.select w = .ok v) :
    v.WellFormed := by
  obtain ⟨n, length, rest, i, cell, -, hshape, -, hi, hcell, rfl⟩ := (select_eq_ok_iff a w v).1 h
  rw [wellFormed_ofElements_iff]
  exact ⟨(hw.cell hshape hi).1, (Elements.length_of_slice?_eq_some hcell).symm,
    hw.elements.2.2.of_slice?_eq_some hcell⟩

theorem WellFormed.reshape {a w v : Value} (hw : w.WellFormed) (h : a.reshape w = .ok v) :
    v.WellFormed := by
  obtain ⟨s, lengths, shape, elements, -, -, hfits, htile, rfl⟩ := (reshape_eq_ok_iff a w v).1 h
  rw [wellFormed_ofElements_iff]
  exact ⟨hfits, (Elements.length_of_tile?_eq_some htile).symm,
    hw.elements.2.2.of_tile?_eq_some htile⟩

theorem WellFormed.catenate {a w v : Value} (ha : a.WellFormed) (hw : w.WellFormed)
    (hbuilt : v.count < countBound) (h : a.catenate w = .ok v) : v.WellFormed := by
  obtain ⟨elements, happend, rfl⟩ := (catenate_eq_ok_iff a w v).1 h
  rw [← length_elements, elements_ofElements] at hbuilt
  rw [wellFormed_ofElements_iff, Shape.fits_singleton_iff]
  exact ⟨hbuilt, by simp, ha.elements.2.2.of_append?_eq_some hw.elements.2.2 happend⟩

theorem wellFormed_dyadic {verb : Verb} {a w v : Value} (ha : a.WellFormed) (hw : w.WellFormed)
    (hbuilt : verb = .comma → v.count < countBound) (h : verb.dyadic a w = .ok v) :
    v.WellFormed := by
  cases verb with
  | plus => exact ha.plus hw h
  | brace => exact hw.select h
  | hash => exact hw.reshape h
  | comma => exact ha.catenate hw (hbuilt rfl) h
  | tilde => cases h
  | less => cases h

end Value

/-! ## Evaluations -/

theorem Application.wellFormed_result {app : Application} (hover : app.Over Value.WellFormed)
    (hbuilt : app.verb = .comma → app.built < countBound) {v : Value}
    (h : app.result = .ok v) : v.WellFormed := by
  rw [Application.built_of_result h] at hbuilt
  cases app with
  | monadic verb w => exact Value.wellFormed_monadic hover h
  | dyadic verb a w => exact Value.wellFormed_dyadic hover.1 hover.2 hbuilt h

theorem Expr.wellFormed_eval (e : Expr) {env : Environment} (henv : env.All Value.WellFormed)
    (hbuilt : ∀ app ∈ e.applications env, app.verb = .comma → app.built < countBound) :
    (e.eval env).All Value.WellFormed ∧
      ∀ app ∈ e.applications env, app.Over Value.WellFormed := by
  apply e.eval_invariant (fun d => Value.wellFormed_scalar _) henv
  intro app happ hover v hresult
  exact Application.wellFormed_result hover (hbuilt app happ) hresult

/-- Well-formedness is kept by every verb and every evaluation, in the value and in
the variables, whether the evaluation succeeds or fails; the check of rank and
count accepts whatever a verb builds; and selecting a cell stays below the bound
in its products and within the elements, so that its second check never fails.
The one assumption is that the vectors built by catenation can be addressed. -/
theorem wellFormed_kept_by_verbs_and_eval :
    (∀ (verb : Verb) (w v : Value), w.WellFormed → verb.monadic w = .ok v → v.WellFormed) ∧
    (∀ (verb : Verb) (a w v : Value), a.WellFormed → w.WellFormed →
      (verb = .comma → v.count < countBound) → verb.dyadic a w = .ok v →
        v.WellFormed ∧ Value.ofElements? v.shape v.elements = .ok v) ∧
    (∀ (w : Value) (length i : Nat) (rest : Shape), w.WellFormed → w.shape = length :: rest →
      i < length →
        (∀ k, Shape.count (rest.take k) < countBound) ∧ i * rest.count < countBound ∧
          (w.elements.slice? (i * rest.count) rest.count).isSome = true) ∧
    (∀ (e : Expr) (env : Environment), env.All Value.WellFormed →
      (∀ app ∈ e.applications env, app.verb = .comma → app.built < countBound) →
        (∀ v, (e.eval env).1 = .ok v → v.WellFormed) ∧ (e.eval env).2.All Value.WellFormed ∧
          ∀ app ∈ e.applications env, app.Over Value.WellFormed ∧
            ∀ v, app.result = .ok v → Value.ofElements? v.shape v.elements = .ok v) := by
  refine ⟨?_, ?_, ?_, ?_⟩
  · intro verb w v hw h
    exact Value.wellFormed_monadic hw h
  · intro verb a w v ha hw hbuilt h
    have hv := Value.wellFormed_dyadic ha hw hbuilt h
    exact ⟨hv, hv.ofElements?_eq⟩
  · intro w length i rest hw hshape hi
    obtain ⟨hfits, hstart, hend⟩ := hw.cell hshape hi
    exact ⟨hfits.2, hstart, (Elements.slice?_isSome_iff _ _ _).2 hend⟩
  · intro e env henv hbuilt
    obtain ⟨heval, hover⟩ := e.wellFormed_eval henv hbuilt
    refine ⟨heval.value, heval.env, ?_⟩
    intro app happ
    refine ⟨hover app happ, ?_⟩
    intro v hresult
    exact (Application.wellFormed_result (hover app happ) (hbuilt app happ) hresult).ofElements?_eq

/-- A cell of an array without elements beside an axis of length `2 ^ 62`, and an
evaluation that catenates, reshapes and selects. -/
theorem wellFormed_kept_with_huge_axis :
    (Value.plain [0, 4611686018427387904] []).WellFormed ∧
      (Value.plain [3] [0, 2, 3]).WellFormed :=
  ⟨(wellFormed_kept_by_verbs_and_eval.2.1 .brace (.scalar 1)
      (.plain [2, 0, 4611686018427387904] []) _ (by decide) (by decide) (by decide) (by rfl)).1,
    (wellFormed_kept_by_verbs_and_eval.2.2.2
      (.dyad .brace (.noun 1) (.dyad .hash (.group (.dyad .comma (.noun 2) (.noun 3)))
        (.dyad .comma (.noun 0) (.dyad .comma (.noun 2) (.noun 3))))) .empty
      (Environment.all_empty _) (by decide)).1 _ (by rfl)⟩

end ArrayLang
