import ArrayLang.Proofs.WellFormedness
import Mathlib.Algebra.BigOperators.Group.List.Basic
import Mathlib.Algebra.Ring.Int.Defs
import Mathlib.Data.List.Infix

set_option autoImplicit false

/-!
# What a reshape comes to

A reshape fails for the first of five causes that applies; `Value.reshapeFault?` lists them in
the order in which they are looked for.  If none applies, the result is described without
saying how it is computed: its shape, its kind, and each of its elements by its place.
Reshaping an array by its own shape changes nothing, and the shape of a reshaped array is what
was asked for.  A reshape of a reshaped array reads the first source wherever the array in
between goes far enough, or ends where the source begins again.
-/

namespace ArrayLang

/-! ## Numbers as axis lengths -/

namespace Element

/-- The product of the numbers. -/
def product (ns : List Element) : Int := (ns.map Int64.toInt).prod

/-- The products of the first numbers, for every number of them. -/
def runningProducts (ns : List Element) : List Int := ns.inits.map product

/-- The axis length that a number stands for if it is not negative. -/
def toLength (n : Element) : Nat := n.toInt.toNat

@[simp] theorem product_nil : product [] = 1 := rfl

@[simp] theorem product_cons (n : Element) (ns : List Element) :
    product (n :: ns) = n.toInt * product ns :=
  List.prod_cons

theorem toInt_toLength {n : Element} (h : 0 ≤ n.toInt) : (n.toLength : Int) = n.toInt :=
  Int.toNat_of_nonneg h

theorem toLength?_eq (n : Element) :
    n.toLength? = if n.toInt < 0 then none else some n.toLength := by
  simp only [toLength?, toLength, Int64.lt_iff_toInt_lt, Int64.toInt_zero]

theorem product_eq_count {ns : List Element} (h : ∀ n ∈ ns, 0 ≤ n.toInt) :
    product ns = (Shape.count (ns.map toLength) : Int) := by
  induction ns with
  | nil => rfl
  | cons n rest ih =>
    obtain ⟨hn, hrest⟩ := List.forall_mem_cons.1 h
    rw [product_cons, ih hrest, List.map_cons, Shape.count_cons, Int.natCast_mul,
      toInt_toLength hn]

/-- The running products are those of the shape, one for each number of its first axes. -/
theorem exists_runningProducts_iff {ns : List Element} (h : ∀ n ∈ ns, 0 ≤ n.toInt) :
    (∃ p ∈ runningProducts ns, (countBound : Int) ≤ p) ↔
      ∃ k, countBound ≤ Shape.count ((ns.map toLength).take k) := by
  have htake (k : Nat) :
      product (ns.take k) = (Shape.count ((ns.map toLength).take k) : Int) := by
    rw [← List.map_take]
    exact product_eq_count fun n hn => h n (List.mem_of_mem_take hn)
  simp only [runningProducts, List.mem_map, List.mem_inits]
  constructor
  · rintro ⟨p, ⟨first, hfirst, rfl⟩, hp⟩
    rw [List.prefix_iff_eq_take.1 hfirst, htake] at hp
    exact ⟨first.length, Int.ofNat_le.1 hp⟩
  · rintro ⟨k, hk⟩
    refine ⟨product (ns.take k), ⟨ns.take k, List.take_prefix k ns, rfl⟩, ?_⟩
    rw [htake]
    exact Int.ofNat_le.2 hk

end Element

theorem Shape.boundedCount?_eq_none_iff (s : Shape) :
    boundedCount? s = none ↔ ∃ k, countBound ≤ count (s.take k) := by
  rw [Option.eq_none_iff_forall_ne_some]
  simp only [ne_eq, boundedCount?_eq_some_iff, not_and, forall_eq, not_forall, Nat.not_lt]

namespace Verb

theorem axisLength_eq (verb : Verb) (n : Element) :
    axisLength verb n =
      if n.toInt < 0 then .error (.negativeLength verb n) else .ok n.toLength := by
  unfold axisLength
  rw [Element.toLength?_eq]
  split_ifs <;> rfl

/-- Numbers are taken for lengths from the left, up to the first negative one. -/
theorem mapM_axisLength (verb : Verb) (ns : List Element) :
    ns.mapM (axisLength verb) =
      match ns.find? fun n => n.toInt < 0 with
      | some n => .error (.negativeLength verb n)
      | none => .ok (ns.map Element.toLength) := by
  induction ns with
  | nil => rfl
  | cons n rest ih =>
    rw [List.mapM_cons, axisLength_eq, ih]
    by_cases hneg : n.toInt < 0
    · simp only [hneg, if_true, decide_true, List.find?_cons_of_pos]
      rfl
    · simp only [hneg, if_false, decide_false, Bool.false_eq_true, not_false_eq_true,
        List.find?_cons_of_neg]
      cases rest.find? fun n => n.toInt < 0 <;> rfl

end Verb

namespace Value

/-! ## Elements by their place -/

/-- The element at a place in row-major order, as an array of its own. -/
def item? : Value → Nat → Option Value
  | plain _ items, i => items[i]?.map scalar
  | boxed _ items, i => items[i]?.map enclose

theorem item?_eq_none_iff (v : Value) (i : Nat) : v.item? i = none ↔ v.count ≤ i := by
  cases v <;> simp [item?, count]

/-- An array is known by its shape, its kind and its elements. -/
theorem ext_item? {v w : Value} (hshape : v.shape = w.shape) (hkind : v.kind = w.kind)
    (hitem : ∀ i, v.item? i = w.item? i) : v = w := by
  have hscalar : Function.Injective scalar := by
    intro x y h
    simpa [scalar] using h
  have henclose : Function.Injective enclose := by
    intro x y h
    simpa [enclose] using h
  cases v with
  | plain s xs =>
    cases w with
    | plain t ys =>
      have hitems : xs = ys := List.ext_getElem? fun i => Option.map_injective hscalar (hitem i)
      rw [hitems]
      exact congrArg (plain · ys) hshape
    | boxed t ys => cases hkind
  | boxed s xs =>
    cases w with
    | plain t ys => cases hkind
    | boxed t ys =>
      have hitems : xs = ys := List.ext_getElem? fun i => Option.map_injective henclose (hitem i)
      rw [hitems]
      exact congrArg (boxed · ys) hshape

/-! ## Elements read cyclically -/

/-- The elements of an array, read cyclically, in a given shape. -/
def tiled (shape : Shape) : Value → Value
  | plain _ items => .plain shape (cyclic items shape.count)
  | boxed _ items => .boxed shape (cyclic items shape.count)

@[simp] theorem shape_tiled (shape : Shape) (w : Value) : (w.tiled shape).shape = shape := by
  cases w <;> rfl

@[simp] theorem kind_tiled (shape : Shape) (w : Value) : (w.tiled shape).kind = w.kind := by
  cases w <;> rfl

@[simp] theorem ofElements_tiled (shape : Shape) (w : Value) :
    ofElements shape (w.tiled shape).elements = w.tiled shape := by
  cases w <;> rfl

theorem count_tiled {shape : Shape} {w : Value} (h : ¬(0 < shape.count ∧ w.count = 0)) :
    (w.tiled shape).count = shape.count := by
  have hsource : shape.count = 0 ∨ w.count ≠ 0 := by omega
  cases w with
  | plain s items | boxed s items =>
    exact length_cyclic (hsource.imp_right fun hne hnil => hne (by simp [count, hnil]))

theorem item?_tiled {shape : Shape} {i : Nat} (hi : i < shape.count) (w : Value) :
    (w.tiled shape).item? i = w.item? (i % w.count) := by
  cases w with
  | plain s items | boxed s items => simp only [tiled, item?, count, getElem?_cyclic items hi]

theorem tile?_elements (w : Value) (shape : Shape) :
    w.elements.tile? shape.count =
      if 0 < shape.count ∧ w.count = 0 then none else some (w.tiled shape).elements := by
  unfold Elements.tile?
  rw [length_elements]
  cases w <;> rfl

/-! ## Failure and success -/

/-- The cause for which a reshape fails, if it does: of the causes that apply, the first. -/
def reshapeFault? (a w : Value) : Option EvalError :=
  match a with
  | boxed _ _ => some (.kindMismatch .hash .plain .boxed)
  | plain _ lengths =>
    match lengths.find? fun n => n.toInt < 0 with
    | some n => some (.negativeLength .hash n)
    | none =>
      if maxRank < lengths.length then some (.rankTooHigh lengths.length)
      else if ∃ p ∈ Element.runningProducts lengths, (countBound : Int) ≤ p then
        some (.overflow .hash)
      else if 0 < Element.product lengths ∧ w.count = 0 then some .emptySource
      else none

/-- The axis lengths that the elements of a plain array give. -/
def lengths : Value → Shape
  | plain _ items => items.map Element.toLength
  | boxed _ _ => []

theorem reshape_plain (s : Shape) (items : List Element) (w : Value) :
    (plain s items).reshape w =
      (items.mapM (Verb.axisLength .hash) >>= fun shape =>
        if maxRank < shape.length then .error (.rankTooHigh shape.length)
        else match Shape.boundedCount? shape with
          | none => .error (.overflow .hash)
          | some count =>
            match w.elements.tile? count with
            | none => .error .emptySource
            | some elements => .ok (.ofElements shape elements)) := rfl

/-- Numbers that can be axis lengths fail for their number, their product or the source. -/
theorem reshape_of_nonneg {items : List Element} (h : ∀ n ∈ items, 0 ≤ n.toInt) (s : Shape)
    (w : Value) :
    (plain s items).reshape w =
      if maxRank < items.length then .error (.rankTooHigh items.length)
      else if ∃ p ∈ Element.runningProducts items, (countBound : Int) ≤ p then
        .error (.overflow .hash)
      else if 0 < Element.product items ∧ w.count = 0 then .error .emptySource
      else .ok (w.tiled (items.map Element.toLength)) := by
  have hnegative : (items.find? fun n => n.toInt < 0) = none := by
    simpa using h
  have hrunning := Element.exists_runningProducts_iff h
  rw [reshape_plain, Verb.mapM_axisLength, hnegative, Element.product_eq_count h]
  simp only [bind, Except.bind, List.length_map]
  by_cases hrank : maxRank < items.length
  · rw [if_pos hrank, if_pos hrank]
  · rw [if_neg hrank, if_neg hrank]
    cases hcount : Shape.boundedCount? (items.map Element.toLength) with
    | none => rw [if_pos (hrunning.2 ((Shape.boundedCount?_eq_none_iff _).1 hcount))]
    | some count =>
      have hfits : ¬∃ p ∈ Element.runningProducts items, (countBound : Int) ≤ p := by
        rw [hrunning, ← Shape.boundedCount?_eq_none_iff, hcount]
        simp
      obtain ⟨rfl, -⟩ := (Shape.boundedCount?_eq_some_iff _ count).1 hcount
      rw [if_neg hfits]
      simp only [tile?_elements, Int.natCast_pos]
      by_cases hsource : 0 < Shape.count (items.map Element.toLength) ∧ w.count = 0
      · simp only [if_pos hsource]
      · simp only [if_neg hsource, ofElements_tiled]

theorem reshape_eq (a w : Value) :
    a.reshape w =
      match a.reshapeFault? w with
      | some cause => .error cause
      | none => .ok (w.tiled a.lengths) := by
  cases a with
  | boxed s items => rfl
  | plain s items =>
    rw [reshapeFault?, lengths]
    cases hnegative : items.find? fun n => n.toInt < 0 with
    | some n =>
      rw [reshape_plain, Verb.mapM_axisLength, hnegative]
      rfl
    | none =>
      have hnonneg : ∀ n ∈ items, 0 ≤ n.toInt := by simpa using hnegative
      rw [reshape_of_nonneg hnonneg]
      simp only []
      split_ifs <;> rfl

/-- A reshape that succeeds was given numbers that are all lengths. -/
theorem reshapeFault?_eq_none {a w : Value} (h : a.reshapeFault? w = none) :
    ∃ s items, a = plain s items ∧ (∀ n ∈ items, 0 ≤ n.toInt) ∧
      ¬(0 < Element.product items ∧ w.count = 0) := by
  cases a with
  | boxed s items => cases h
  | plain s items =>
    rw [reshapeFault?] at h
    split at h
    · cases h
    · rename_i hnegative
      refine ⟨s, items, rfl, by simpa using hnegative, ?_⟩
      intro hsource
      rw [if_pos hsource] at h
      split_ifs at h

/-- The array `v` has the elements of `w`, read cyclically, in the shape that the numbers
give. -/
structure LaidOut (lengths : List Element) (w v : Value) : Prop where
  shape : v.shape.map Int.ofNat = lengths.map Int64.toInt
  kind : v.kind = w.kind
  count : (v.count : Int) = Element.product lengths
  item : ∀ i < v.count, v.item? i = w.item? (i % w.count)

/-- There is exactly one such array. -/
theorem laidOut_iff {lengths : List Element} (hlengths : ∀ n ∈ lengths, 0 ≤ n.toInt) {w : Value}
    (hsource : ¬(0 < Element.product lengths ∧ w.count = 0)) (v : Value) :
    LaidOut lengths w v ↔ v = w.tiled (lengths.map Element.toLength) := by
  have hshape : (lengths.map Element.toLength).map Int.ofNat = lengths.map Int64.toInt := by
    rw [List.map_map]
    exact List.map_congr_left fun n hn => Element.toInt_toLength (hlengths n hn)
  have hproduct := Element.product_eq_count hlengths
  rw [hproduct, Int.natCast_pos] at hsource
  have hcount := count_tiled hsource
  constructor
  · intro h
    have hv : v.count = Shape.count (lengths.map Element.toLength) :=
      Int.ofNat_inj.1 (h.count.trans hproduct)
    apply ext_item?
    · rw [shape_tiled]
      exact List.map_injective_iff.2 (fun _ _ => Int.ofNat_inj.1) (h.shape.trans hshape.symm)
    · rw [h.kind, kind_tiled]
    · intro i
      by_cases hi : i < v.count
      · rw [h.item i hi, item?_tiled (hv ▸ hi)]
      · -- Past the count neither array has an element.
        rw [(item?_eq_none_iff v i).2 (Nat.le_of_not_lt hi),
          (item?_eq_none_iff _ i).2 (by rw [hcount, ← hv]; exact Nat.le_of_not_lt hi)]
  · rintro rfl
    refine ⟨by rw [shape_tiled, hshape], kind_tiled _ w, by rw [hcount, hproduct], ?_⟩
    intro i hi
    exact item?_tiled (hcount ▸ hi) w

end Value

/-- A reshape fails exactly if `Value.reshapeFault?` names a cause, and for that cause.
Otherwise it gives the one array that has the elements of the right operand, read cyclically,
in the shape that the elements of the left operand give. -/
theorem reshape_fails_in_order_or_tiles (a w : Value) :
    match a.reshapeFault? w with
    | some cause => a.reshape w = .error cause
    | none => ∃ s lengths v, a = .plain s lengths ∧ a.reshape w = .ok v ∧
        ∀ u, Value.LaidOut lengths w u ↔ u = v := by
  rw [Value.reshape_eq]
  cases hfault : a.reshapeFault? w with
  | some cause => rfl
  | none =>
    obtain ⟨s, lengths, rfl, hlengths, hsource⟩ := Value.reshapeFault?_eq_none hfault
    exact ⟨s, lengths, _, rfl, rfl, Value.laidOut_iff hlengths hsource⟩

example : (Value.vector [2, -1, 5, -3]).reshapeFault? (.vector []) =
    some (.negativeLength .hash (-1)) := by decide

example : (Value.vector [2, 0, 9223372036854775807]).reshapeFault? (.vector []) = none := by decide

/-! ## Shape after reshape, and reshape by the shape -/

namespace Element

theorem ofLength_of_toInt {n : Element} {k : Nat} (h : n.toInt = k) : ofLength k = n := by
  rw [← Int64.toInt_inj, toInt_ofLength (lt_lengthBound_of_toInt h), h]

theorem map_ofLength_eq {ns : List Element} {shape : Shape}
    (h : List.Forall₂ (fun (n : Element) (k : Nat) => n.toInt = k) ns shape) :
    shape.map ofLength = ns := by
  induction h with
  | nil => rfl
  | cons hn _ ih => rw [List.map_cons, ofLength_of_toInt hn, ih]

end Element

theorem cyclic_length {α : Type} (items : List α) : cyclic items items.length = items := by
  rw [cyclic, List.replicate_succ, List.flatten_cons, List.take_left]

namespace Value

theorem tiled_shape {w : Value} (h : w.shape.count = w.count) : w.tiled w.shape = w := by
  cases w with
  | plain s items | boxed s items =>
    rw [tiled, shape, show s.count = items.length from h, cyclic_length]

/-- The elements of an array whose axis lengths are elements, in whatever shape they come, are
laid out again by a reshape to its shape. -/
theorem reshape_shapeVector {w v : Value} (hfits : w.shape.Fits)
    (hcount : w.shape.count = w.count) (haxes : ∀ n ∈ w.shape, n < Element.lengthBound)
    (helements : v.elements = w.elements) : w.shapeVector.reshape v = .ok w := by
  rw [reshape_eq_ok_iff]
  refine ⟨[_], w.shape.map Element.ofLength, w.shape, w.elements, rfl, ?_, hfits, ?_, by simp⟩
  · rw [List.forall₂_map_left_iff, List.forall₂_same]
    intro n hn
    exact Element.toInt_ofLength (haxes n hn)
  · rw [helements, tile?_elements, hcount, tiled_shape hcount, if_neg (by omega)]

/-- An array whose axis lengths are elements is kept by a reshape to its own shape. -/
theorem WellFormed.reshape_shapeVector {w : Value} (hw : w.WellFormed)
    (haxes : ∀ n ∈ w.shape, n < Element.lengthBound) : w.shapeVector.reshape w = .ok w :=
  Value.reshape_shapeVector hw.elements.1 hw.count_eq haxes rfl

end Value

/-- A well-formed array whose axis lengths are elements is reshaped by its own shape to
itself.  Whatever a reshape gives, its shape is the numbers that were asked for, and its size
the first of them, or one if there are none. -/
theorem shape_and_reshape_are_inverse :
    (∀ w : Value, w.WellFormed → (∀ n ∈ w.shape, n < Element.lengthBound) →
      w.shapeVector.reshape w = .ok w) ∧
    (∀ a w v : Value, a.reshape w = .ok v →
      ∃ s lengths, a = .plain s lengths ∧ v.shapeVector = .vector lengths ∧
        v.size = .scalar (lengths.headD 1)) := by
  refine ⟨fun w hw haxes => hw.reshape_shapeVector haxes, ?_⟩
  intro a w v h
  obtain ⟨s, lengths, shape, elements, rfl, hshape, -, -, rfl⟩ :=
    (Value.reshape_eq_ok_iff a w v).1 h
  have hlengths := Element.map_ofLength_eq hshape
  refine ⟨s, lengths, rfl, ?_, ?_⟩
  · rw [Value.shapeVector, Value.shape_ofElements, hlengths]
  · rw [Value.size, Value.firstLength, Value.shape_ofElements, ← hlengths]
    cases shape <;> rfl

/-- A boxed array without elements that has the longest axis an element can give, and a reshape
to a scalar. -/
theorem shape_and_reshape_are_inverse_beside_empty_axis :
    (Value.boxed [2, 0, 9223372036854775807] []).WellFormed ∧
    (Value.boxed [2, 0, 9223372036854775807] []).shapeVector.reshape
      (.boxed [2, 0, 9223372036854775807] []) = .ok (.boxed [2, 0, 9223372036854775807] []) ∧
    (Value.vector []).reshape (.vector [7, 8]) = .ok (.scalar 7) ∧
    (Value.scalar 7).shapeVector = .vector [] := by
  have hwell : (Value.boxed [2, 0, 9223372036854775807] []).WellFormed := by decide
  have haxes : ∀ n ∈ (Value.boxed [2, 0, 9223372036854775807] []).shape,
      n < Element.lengthBound := by decide
  have hscalar : (Value.vector []).reshape (.vector [7, 8]) = .ok (.scalar 7) := by rfl
  obtain ⟨s, lengths, ha, hshape, -⟩ := shape_and_reshape_are_inverse.2 _ _ _ hscalar
  cases ha
  exact ⟨hwell, shape_and_reshape_are_inverse.1 _ hwell haxes, hscalar, hshape⟩

/-! ## Reshapes of reshapes -/

theorem cyclic_nil {α : Type} (n : Nat) : cyclic ([] : List α) n = [] := by
  simp [cyclic]

theorem getElem?_cyclic_of_le {α : Type} (items : List α) {n i : Nat} (h : n ≤ i) :
    (cyclic items n)[i]? = none := by
  rw [cyclic, List.getElem?_eq_none_iff]
  exact Nat.le_trans (List.length_take_le n _) h

/-- A cyclic reading reads like its source: as far as it goes, and past its end if it ends where
the source begins again. -/
theorem cyclic_cyclic {α : Type} {items : List α} {n m : Nat} (hsource : n = 0 ∨ items ≠ [])
    (h : m ≤ n ∨ ∃ k, 0 < k ∧ n = k * items.length) :
    cyclic (cyclic items n) m = cyclic items m := by
  by_cases hitems : items = []
  · simp only [hitems, cyclic_nil]
  · apply List.ext_getElem?
    intro i
    by_cases hi : i < m
    · have hlength : 0 < items.length := List.length_pos_iff.2 hitems
      have hn : 0 < n := by
        rcases h with hle | ⟨k, hk, rfl⟩
        · omega
        · exact Nat.mul_pos hk hlength
      have hplace : i % n % items.length = i % items.length := by
        rcases h with hle | ⟨k, hk, rfl⟩
        · rw [Nat.mod_eq_of_lt (Nat.lt_of_lt_of_le hi hle)]
        · exact Nat.mod_mod_of_dvd i (Nat.dvd_mul_left _ k)
      rw [getElem?_cyclic _ hi, getElem?_cyclic _ hi, length_cyclic hsource,
        getElem?_cyclic _ (Nat.mod_lt i hn), hplace]
    · have hle := Nat.le_of_not_lt hi
      rw [getElem?_cyclic_of_le _ hle, getElem?_cyclic_of_le _ hle]

namespace Value

theorem tiled_tiled {s t : Shape} {w : Value} (hsource : ¬(0 < s.count ∧ w.count = 0))
    (h : t.count ≤ s.count ∨ ∃ k, 0 < k ∧ s.count = k * w.count) :
    (w.tiled s).tiled t = w.tiled t := by
  have hsource : s.count = 0 ∨ w.count ≠ 0 := by omega
  cases w with
  | plain _ items | boxed _ items =>
    simp only [tiled]
    rw [cyclic_cyclic (hsource.imp_right fun hne hnil => hne (by simp [count, hnil])) h]

/-- What the elements of the source are matters to a reshape only as far as they are read. -/
theorem reshape_plain_congr {lengths : List Element} {v w : Value} (s : Shape)
    (hempty : 0 < Element.product lengths → (v.count = 0 ↔ w.count = 0))
    (htiled : (∀ n ∈ lengths, 0 ≤ n.toInt) →
      v.tiled (lengths.map Element.toLength) = w.tiled (lengths.map Element.toLength)) :
    (plain s lengths).reshape v = (plain s lengths).reshape w := by
  rw [reshape_eq, reshape_eq]
  simp only [reshapeFault?, Value.lengths, and_congr_right hempty]
  cases hnegative : lengths.find? fun n => n.toInt < 0 with
  | some n => rfl
  | none => rw [htiled (by simpa using hnegative)]

theorem exists_tiled_of_reshape {a w v : Value} (h : a.reshape w = .ok v) :
    ∃ shape, v = w.tiled shape ∧ ¬(0 < shape.count ∧ w.count = 0) := by
  obtain ⟨s, lengths, shape, elements, -, -, -, htile, rfl⟩ := (reshape_eq_ok_iff a w v).1 h
  rw [tile?_elements] at htile
  split at htile
  · cases htile
  · rename_i hsource
    cases htile
    exact ⟨shape, ofElements_tiled shape w, hsource⟩

end Value

/-- A reshape of what a reshape gave is a reshape of the first source, in its value and in its
failures, if it asks for no more elements than the first one gave, or if the first one gave
every element of the source equally often. -/
theorem nested_reshapes_collapse {a w v : Value} (hv : a.reshape w = .ok v) (s : Shape)
    (lengths : List Element)
    (h : Element.product lengths ≤ v.count ∨ ∃ k, 0 < k ∧ v.count = k * w.count) :
    (Value.plain s lengths).reshape v = (Value.plain s lengths).reshape w := by
  obtain ⟨shape, rfl, hsource⟩ := Value.exists_tiled_of_reshape hv
  rw [Value.count_tiled hsource] at h
  apply Value.reshape_plain_congr
  · intro hpos
    rw [Value.count_tiled hsource]
    rcases h with hle | ⟨k, hk, hcount⟩
    · omega
    · rw [hcount, Nat.mul_eq_zero]
      omega
  · intro hlengths
    apply Value.tiled_tiled hsource
    rwa [Element.product_eq_count hlengths, Int.ofNat_le] at h

/-- Three copies of two elements, read past their end. -/
theorem nested_reshapes_collapse_past_end :
    (Value.vector [2, 3]).reshape (.vector [7, 8]) = .ok (.plain [2, 3] [7, 8, 7, 8, 7, 8]) ∧
    (Value.scalar 9).reshape (.plain [2, 3] [7, 8, 7, 8, 7, 8]) =
      (Value.scalar 9).reshape (.vector [7, 8]) := by
  have hv : (Value.vector [2, 3]).reshape (.vector [7, 8]) =
      .ok (.plain [2, 3] [7, 8, 7, 8, 7, 8]) := by rfl
  exact ⟨hv, nested_reshapes_collapse hv [] [9] (Or.inr ⟨3, by decide, by decide⟩)⟩

-- Two of three elements do not make up for all three.
example : (Value.scalar 2).reshape (.vector [7, 8, 9]) = .ok (.vector [7, 8]) ∧
    (Value.scalar 3).reshape (.vector [7, 8]) = .ok (.vector [7, 8, 7]) ∧
    (Value.scalar 3).reshape (.vector [7, 8, 9]) = .ok (.vector [7, 8, 9]) :=
  ⟨by rfl, by rfl, by rfl⟩

end ArrayLang
