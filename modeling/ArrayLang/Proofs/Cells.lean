import ArrayLang.Proofs.Groupings
import ArrayLang.Proofs.Reshape

set_option autoImplicit false

/-!
# The cells of an array

A selection fails for the first of four causes that applies; `Value.selectFault?` lists them in
the order in which they are looked for.  If none applies, the result is the cell at the given
position of the first axis: what is left of the shape, and the elements of that position, which
stand together in row-major order.  So one selection for each axis comes down to the element at
the row-major place of the indices, and the cells of an array, catenated in any grouping and laid
out in the shape of the array, are the array again.
-/

namespace ArrayLang

namespace Element

/-- The number is a position along an axis of this length. -/
def Within (n : Element) (length : Nat) : Prop := 0 ≤ n.toInt ∧ n.toInt < length

instance (n : Element) (length : Nat) : Decidable (n.Within length) :=
  inferInstanceAs (Decidable (_ ∧ _))

theorem Within.toLength_lt {n : Element} {length : Nat} (h : n.Within length) :
    n.toLength < length := by
  have hlength := toInt_toLength h.1
  have hlt := h.2
  omega

theorem within_of_toLength_lt {n : Element} {length : Nat} (hnonneg : 0 ≤ n.toInt)
    (h : n.toLength < length) : n.Within length := by
  refine ⟨hnonneg, ?_⟩
  rw [← toInt_toLength hnonneg]
  exact Int.ofNat_lt.2 h

theorem toLength_ofLength {n : Nat} (h : n < lengthBound) : (ofLength n).toLength = n := by
  rw [toLength, toInt_ofLength h, Int.toNat_natCast]

end Element

namespace Value

/-! ## One cell -/

/-- The elements at a position of the first axis, in the shape of the other axes. -/
def cell (i : Nat) : Value → Value
  | plain s items =>
    .plain s.tail ((items.drop (i * Shape.count s.tail)).take (Shape.count s.tail))
  | boxed s items =>
    .boxed s.tail ((items.drop (i * Shape.count s.tail)).take (Shape.count s.tail))

/-- The array `v` has the elements of `w` at one position of its first axis, in order, and the
shape of the other axes. -/
structure IsCell (i : Nat) (w v : Value) : Prop where
  shape : v.shape = w.shape.tail
  kind : v.kind = w.kind
  count : v.count = v.shape.count
  item : ∀ j < v.count, v.item? j = w.item? (i * v.count + j)

@[simp] theorem shape_cell (i : Nat) (w : Value) : (w.cell i).shape = w.shape.tail := by
  cases w <;> rfl

@[simp] theorem kind_cell (i : Nat) (w : Value) : (w.cell i).kind = w.kind := by
  cases w <;> rfl

section Axis

variable {w : Value} {length : Nat} {rest : Shape} (hshape : w.shape = length :: rest)

include hshape

theorem shape_cell_of_cons (i : Nat) : (w.cell i).shape = rest := by
  rw [shape_cell, hshape, List.tail_cons]

theorem item?_cell (i : Nat) {j : Nat} (hj : j < rest.count) :
    (w.cell i).item? j = w.item? (i * rest.count + j) := by
  cases w with
  | plain s items | boxed s items =>
    rw [shape] at hshape
    simp only [cell, item?, hshape, List.tail_cons, List.getElem?_take_of_lt hj,
      List.getElem?_drop]

variable (hcount : w.shape.count = w.count)

include hcount

theorem slice?_cell {i : Nat} (hi : i < length) :
    w.elements.slice? (i * rest.count) rest.count = some (w.cell i).elements := by
  have hend := cell_end_le hcount hshape hi
  unfold Elements.slice?
  rw [length_elements, if_pos hend]
  cases w with
  | plain s items | boxed s items =>
    rw [shape] at hshape
    simp only [elements, cell, hshape, List.tail_cons]

theorem count_cell {i : Nat} (hi : i < length) : (w.cell i).count = rest.count := by
  rw [← length_elements]
  exact Elements.length_of_slice?_eq_some (slice?_cell hshape hcount hi)

/-- Within the first axis exactly one array is the cell. -/
theorem isCell_iff {i : Nat} (hi : i < length) (v : Value) : IsCell i w v ↔ v = w.cell i := by
  have hcell := count_cell hshape hcount hi
  constructor
  · intro h
    have hv : v.count = rest.count := by
      rw [h.count, h.shape, ← shape_cell i w, shape_cell_of_cons hshape]
    apply ext_item?
    · rw [h.shape, shape_cell]
    · rw [h.kind, kind_cell]
    · intro j
      by_cases hj : j < rest.count
      · rw [h.item j (hv ▸ hj), item?_cell hshape i hj, hv]
      · -- Past the count neither array has an element.
        have hle := Nat.le_of_not_lt hj
        rw [(item?_eq_none_iff v j).2 (hv ▸ hle), (item?_eq_none_iff _ j).2 (hcell ▸ hle)]
  · rintro rfl
    refine ⟨shape_cell i w, kind_cell i w, by rw [hcell, shape_cell_of_cons hshape], ?_⟩
    intro j hj
    rw [hcell] at hj ⊢
    exact item?_cell hshape i hj

theorem select_scalar (n : Element) :
    (scalar n).select w =
      if n.Within length then .ok (w.cell n.toLength) else .error (.indexOutOfBounds n length) := by
  unfold select
  rw [Verb.integer_scalar, hshape]
  simp only [bind, Except.bind]
  rw [Element.toLength?_eq]
  by_cases hneg : n.toInt < 0
  · rw [if_pos hneg, if_neg fun h => Int.not_le.2 hneg h.1]
  · rw [if_neg hneg]
    by_cases hi : n.toLength < length
    · have hcell : ofElements rest (w.cell n.toLength).elements = w.cell n.toLength := by
        rw [← shape_cell_of_cons hshape n.toLength, ofElements_elements]
      rw [if_pos (Element.within_of_toLength_lt (Int.not_lt.1 hneg) hi)]
      simp only [if_pos hi, slice?_cell hshape hcount hi, hcell]
    · rw [if_neg fun h => hi h.toLength_lt]
      simp only [if_neg hi]

end Axis

/-! ## Failure and success -/

/-- The cause for which a selection fails, if it does: of the causes that apply, the first. -/
def selectFault? (a w : Value) : Option EvalError :=
  if a.kind = .boxed then some (.kindMismatch .brace .plain .boxed)
  else if a.rank ≠ 0 then some (.rankMismatch .brace .scalar a.rank)
  else if w.rank = 0 then some (.rankMismatch .brace .axes 0)
  else match a.toInteger? with
    | none => none
    | some n =>
      if n.toInt < 0 ∨ (w.firstLength : Int) ≤ n.toInt then
        some (.indexOutOfBounds n w.firstLength)
      else none

theorem selectFault?_scalar {w : Value} {length : Nat} {rest : Shape}
    (hshape : w.shape = length :: rest) (n : Element) :
    (scalar n).selectFault? w =
      if n.Within length then none else some (.indexOutOfBounds n length) := by
  have hkind : (scalar n).kind ≠ .boxed := nofun
  have hscalar : ¬(scalar n).rank ≠ 0 := not_not_intro rfl
  have hrank : w.rank ≠ 0 := by simp [rank, hshape]
  have hfirst : w.firstLength = length := by rw [firstLength, hshape, List.headD_cons]
  have hout : n.toInt < 0 ∨ (length : Int) ≤ n.toInt ↔ ¬n.Within length := by
    rw [Element.Within, not_and_or, Int.not_le, Int.not_lt]
  rw [selectFault?, if_neg hkind, if_neg hscalar, if_neg hrank, toInteger?_scalar, hfirst]
  simp only [hout, ite_not]

/-- A well-formed plain array without axes is one integer. -/
theorem WellFormed.exists_eq_scalar {a : Value} (ha : a.WellFormed) (hkind : a.kind ≠ .boxed)
    (hrank : a.rank = 0) : ∃ n, a = scalar n := by
  cases a with
  | boxed s items => exact absurd rfl hkind
  | plain s items =>
    obtain rfl := List.length_eq_zero_iff.1 hrank
    obtain ⟨n, rfl⟩ := List.length_eq_one_iff.1 ha.2.symm
    exact ⟨n, rfl⟩

theorem select_of_rank_ne_zero {a : Value} (hkind : a.kind ≠ .boxed) (hrank : a.rank ≠ 0)
    (w : Value) : a.select w = .error (.rankMismatch .brace .scalar a.rank) := by
  cases a with
  | boxed s items => exact absurd rfl hkind
  | plain s items =>
    cases s with
    | nil => exact absurd rfl hrank
    | cons n rest => rfl

theorem select_scalar_of_rank_zero {w : Value} (hshape : w.shape = []) (n : Element) :
    (scalar n).select w = .error (.rankMismatch .brace .axes 0) := by
  unfold select
  rw [Verb.integer_scalar, hshape]
  rfl

/-- A selection fails for the cause that is named, and otherwise gives a cell. -/
theorem select_fault_or_cell {a w : Value} (ha : a.WellFormed) (hcount : w.shape.count = w.count) :
    match a.selectFault? w with
    | some cause => a.select w = .error cause
    | none => ∃ n length rest, a = scalar n ∧ w.shape = length :: rest ∧ n.Within length ∧
        a.select w = .ok (w.cell n.toLength) := by
  by_cases hkind : a.kind = .boxed
  · rw [selectFault?, if_pos hkind]
    cases a with
    | plain s items => cases hkind
    | boxed s items => rfl
  · by_cases hrank : a.rank ≠ 0
    · rw [selectFault?, if_neg hkind, if_pos hrank]
      exact select_of_rank_ne_zero hkind hrank w
    · obtain ⟨n, rfl⟩ := ha.exists_eq_scalar hkind (not_not.1 hrank)
      cases hshape : w.shape with
      | nil =>
        rw [selectFault?, if_neg hkind, if_neg hrank, if_pos (by rw [rank, hshape]; rfl)]
        exact select_scalar_of_rank_zero hshape n
      | cons length rest =>
        rw [selectFault?_scalar hshape, select_scalar hshape hcount]
        by_cases hn : n.Within length
        · simp only [if_pos hn]
          exact ⟨n, length, rest, rfl, rfl, hn, rfl⟩
        · simp only [if_neg hn]

end Value

/-! ## One cell for each axis -/

/-- The row-major place of the element at the given indices, one for each axis. -/
def Shape.place (s : Shape) (indices : List Element) : Nat :=
  (s.zip indices).foldl (fun place axis => place * axis.1 + axis.2.toLength) 0

theorem Shape.foldl_place (s : Shape) {indices : List Element} (h : indices.length = s.length)
    (first : Nat) :
    (s.zip indices).foldl (fun place axis => place * axis.1 + axis.2.toLength) first =
      first * s.count + s.place indices := by
  unfold place
  induction s generalizing indices first with
  | nil => simp
  | cons length rest ih =>
    cases indices with
    | nil => cases h
    | cons n indices =>
      have hrest : indices.length = rest.length := Nat.succ_inj.1 h
      rw [List.zip_cons_cons, List.foldl_cons, List.foldl_cons, ih hrest, ih hrest (_ + _),
        count_cons, Nat.zero_mul, Nat.zero_add, Nat.add_mul, Nat.mul_assoc, Nat.add_assoc]

theorem Shape.place_cons (length : Nat) {rest : Shape} (n : Element) {indices : List Element}
    (h : indices.length = rest.length) :
    place (length :: rest) (n :: indices) = n.toLength * rest.count + place rest indices := by
  rw [place, List.zip_cons_cons, List.foldl_cons, Nat.zero_mul, Nat.zero_add, foldl_place _ h]

namespace Value

/-- One selection for each index, from the first axis on. -/
def selectEach (w : Value) (indices : List Element) : Except EvalError Value :=
  indices.foldlM (fun v n => (scalar n).select v) w

theorem item?_of_rank_zero {w : Value} (hshape : w.shape = []) (hcount : w.shape.count = w.count) :
    w.item? 0 = some w := by
  rw [hshape, Shape.count_nil] at hcount
  cases w with
  | plain s items | boxed s items =>
    obtain ⟨x, rfl⟩ := List.length_eq_one_iff.1 hcount.symm
    obtain rfl : s = [] := hshape
    rfl

/-- A selection for each axis gives the element at the row-major place of the indices. -/
theorem exists_selectEach {w : Value} (hcount : w.shape.count = w.count) {indices : List Element}
    (h : List.Forall₂ Element.Within indices w.shape) :
    ∃ v, w.selectEach indices = .ok v ∧ w.item? (Shape.place w.shape indices) = some v := by
  generalize hshape : w.shape = s at h
  -- Each step of the induction takes the cell of the first axis.
  induction h generalizing w with
  | nil => exact ⟨w, rfl, item?_of_rank_zero hshape hcount⟩
  | @cons n length indices rest hn hrest ih =>
    have hcell := shape_cell_of_cons hshape n.toLength
    have hcells := count_cell hshape hcount hn.toLength_lt
    obtain ⟨v, hv, hitem⟩ := ih (by rw [hcell, hcells]) hcell
    have hplace : Shape.place rest indices < Shape.count rest := by
      rw [← hcells, ← Nat.not_le, ← item?_eq_none_iff, hitem]
      exact Option.some_ne_none v
    refine ⟨v, ?_, ?_⟩
    · rw [selectEach, List.foldlM_cons, select_scalar hshape hcount, if_pos hn]
      exact hv
    · rw [Shape.place_cons length n hrest.length_eq, ← item?_cell hshape _ hplace, hitem]

end Value

/-- A selection fails exactly if `Value.selectFault?` names a cause, and for that cause.
Otherwise it gives the one array that is the cell at the given position: of the kind of the right
operand, without its first axis.  One selection for each axis gives the element at the row-major
place of the indices.  The demands on ranks are spelled as users read them. -/
theorem select_fails_in_order_or_takes_cell :
    (∀ a w : Value, a.WellFormed → w.WellFormed →
      match a.selectFault? w with
      | some cause => a.select w = .error cause
      | none => ∃ n v, a = .scalar n ∧ a.select w = .ok v ∧
          ∀ u, Value.IsCell n.toLength w u ↔ u = v) ∧
    (∀ (w : Value) (indices : List Element), w.WellFormed →
      List.Forall₂ Element.Within indices w.shape →
        ∃ v, w.selectEach indices = .ok v ∧ w.item? (Shape.place w.shape indices) = some v) ∧
    RankDemand.scalar.text = "rank 0" ∧ RankDemand.axes.text = "rank 1 or more" := by
  refine ⟨?_, ?_, rfl, rfl⟩
  · intro a w ha hw
    have hselect := Value.select_fault_or_cell ha hw.count_eq
    cases hfault : a.selectFault? w with
    | some cause => rwa [hfault] at hselect
    | none =>
      rw [hfault] at hselect
      obtain ⟨n, length, rest, rfl, hshape, hn, hselect⟩ := hselect
      exact ⟨n, _, rfl, hselect, Value.isCell_iff hshape hw.count_eq hn.toLength_lt⟩
  · intro w indices hw hindices
    exact Value.exists_selectEach hw.count_eq hindices

/-- A negative position, and a cell of a cell, in an array of boxes. -/
theorem select_takes_cells_of_boxes :
    (Value.scalar (-1)).select (.boxed [2, 2] [.scalar 5, .vector [1], .scalar 7, .vector []]) =
      .error (.indexOutOfBounds (-1) 2) ∧
    (Value.boxed [2, 2] [.scalar 5, .vector [1], .scalar 7, .vector []]).selectEach [1, 0] =
      .ok (.enclose (.scalar 7)) := by
  have hwell : (Value.boxed [2, 2] [.scalar 5, .vector [1], .scalar 7, .vector []]).WellFormed := by
    decide
  obtain ⟨v, hv, hitem⟩ := select_fails_in_order_or_takes_cell.2.1 _ [1, 0] hwell
    (.cons ⟨by decide, by decide⟩ (.cons ⟨by decide, by decide⟩ .nil))
  obtain rfl : Value.enclose (.scalar 7) = v := Option.some.inj hitem
  exact ⟨select_fails_in_order_or_takes_cell.1 (.scalar (-1)) _ (by decide) hwell, hv⟩

/-! ## All cells together -/

namespace Elements

/-- Slices that follow each other join to one slice. -/
theorem exists_append?_slice? {e f g : Elements} {start first second : Nat}
    (hf : e.slice? start first = some f) (hg : e.slice? (start + first) second = some g) :
    ∃ joined, f.append? g = some joined ∧ e.slice? start (first + second) = some joined := by
  unfold slice? at hf hg ⊢
  split at hg
  · rename_i hend
    rw [if_pos (by omega)] at hf
    rw [if_pos (by omega)]
    cases e with
    | plain items | boxed items =>
      cases hf
      cases hg
      refine ⟨_, rfl, ?_⟩
      simp only [List.take_add, List.drop_drop]
  · cases hg

theorem slice?_length (e : Elements) : e.slice? 0 e.length = some e := by
  unfold slice?
  rw [if_pos (by omega)]
  cases e with
  | plain items | boxed items => simp only [length, List.drop_zero, List.take_length]

end Elements

section Rebuild

variable {w : Value} {length : Nat} {rest : Shape} (hshape : w.shape = length :: rest)
  (hcount : w.shape.count = w.count)

include hshape hcount

/-- Cells that follow each other, catenated in any grouping, are the elements from the first of
them to the last. -/
theorem Grouping.exists_combine_cells (g : Grouping) {start n : Nat} (hend : start + n ≤ length)
    (hg : (List.range' start n).map (fun i => w.cell i) = g.operands) :
    ∃ v, g.combine .comma = .ok v ∧
      w.elements.slice? (start * rest.count) (n * rest.count) = some v.elements := by
  induction g generalizing start n with
  | operand v =>
    obtain rfl : n = 1 := by simpa [operands] using congrArg List.length hg
    obtain rfl : w.cell start = v := by simpa [operands] using hg
    refine ⟨_, rfl, ?_⟩
    rw [Nat.one_mul]
    exact Value.slice?_cell hshape hcount (by omega)
  | pair left right ihleft ihright =>
    obtain ⟨firsts, seconds, hrange, hfirsts, hseconds⟩ := List.map_eq_append_iff.1 hg
    obtain ⟨k, hk, rfl, rfl⟩ := List.range'_eq_append_iff.1 hrange
    rw [Nat.mul_one] at hseconds
    obtain ⟨a, ha, hfirst⟩ := ihleft (by omega) hfirsts
    obtain ⟨b, hb, hsecond⟩ := ihright (by omega) hseconds
    rw [Nat.add_mul] at hsecond
    obtain ⟨joined, hjoined, hslice⟩ := Elements.exists_append?_slice? hfirst hsecond
    refine ⟨.ofElements [joined.length] joined, ?_, ?_⟩
    · rw [combine_pair_eq_ok_iff]
      exact ⟨a, b, ha, hb, (Value.catenate_eq_ok_iff a b _).2 ⟨joined, hjoined, rfl⟩⟩
    · rw [Value.elements_ofElements, ← hslice, ← Nat.add_mul, Nat.add_sub_cancel' hk]

theorem Value.mapM_select (haxis : length < Element.lengthBound) :
    (List.range length).mapM (fun i => (scalar (.ofLength i)).select w) =
      .ok ((List.range length).map fun i => w.cell i) := by
  rw [except_mapM_eq_ok_iff, List.forall₂_map_right_iff, List.forall₂_same]
  intro i hi
  have hlt : i < length := List.mem_range.1 hi
  have hbound : i < Element.lengthBound := Nat.lt_trans hlt haxis
  have hn : (Element.ofLength i).Within length := by
    rw [Element.Within, Element.toInt_ofLength hbound]
    omega
  rw [select_scalar hshape hcount, if_pos hn, Element.toLength_ofLength hbound]

end Rebuild

/-- The cells of an array whose axis lengths are elements can all be selected; in any grouping
their catenation exists, and reshaped to the shape of the array it is the array. -/
theorem array_rebuilt_from_cells {w : Value} {length : Nat} {rest : Shape}
    (hshape : w.shape = length :: rest) (hfits : w.shape.Fits) (hcount : w.shape.count = w.count)
    (haxes : ∀ n ∈ w.shape, n < Element.lengthBound) :
    ∃ cells, (List.range length).mapM (fun i => (Value.scalar (.ofLength i)).select w) = .ok cells ∧
      ∀ g : Grouping, g.operands = cells →
        ∃ v, g.combine .comma = .ok v ∧ w.shapeVector.reshape v = .ok w := by
  have haxis : length < Element.lengthBound := haxes length (hshape ▸ List.mem_cons_self)
  refine ⟨_, Value.mapM_select hshape hcount haxis, ?_⟩
  intro g hg
  rw [List.range_eq_range'] at hg
  obtain ⟨v, hv, hslice⟩ :=
    g.exists_combine_cells hshape hcount (Nat.le_of_eq (Nat.zero_add length)) hg.symm
  have helements : v.elements = w.elements := by
    have hall := w.elements.slice?_length
    rw [Value.length_elements, ← hcount, hshape, Shape.count_cons] at hall
    rw [Nat.zero_mul, hall] at hslice
    exact (Option.some.inj hslice).symm
  exact ⟨v, hv, Value.reshape_shapeVector hfits hcount haxes helements⟩

/-- Three rows of one box each, the first two catenated first. -/
theorem array_rebuilt_from_boxed_rows :
    ∃ v, (Grouping.pair
        (.pair (.operand (.boxed [1] [.scalar 5])) (.operand (.boxed [1] [.vector []])))
        (.operand (.boxed [1] [.scalar 7]))).combine .comma = .ok v ∧
      (Value.boxed [3, 1] [.scalar 5, .vector [], .scalar 7]).shapeVector.reshape v =
        .ok (.boxed [3, 1] [.scalar 5, .vector [], .scalar 7]) := by
  obtain ⟨cells, hcells, hrebuilt⟩ :=
    array_rebuilt_from_cells (w := .boxed [3, 1] [.scalar 5, .vector [], .scalar 7]) rfl
      (by decide) (by decide) (by decide)
  obtain rfl : [.boxed [1] [.scalar 5], .boxed [1] [.vector []], .boxed [1] [.scalar 7]] = cells :=
    Except.ok.inj hcells
  exact hrebuilt _ rfl

end ArrayLang
