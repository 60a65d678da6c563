import ArrayLang.Value.Basic

set_option autoImplicit false

/-!
# The elements of an array, apart from its shape

`Elements` is what remains of a value when its shape is forgotten: a row of
integers or a row of boxes.  The operations that move elements about without
looking at them (tile, slice, append) are stated here once
for both kinds.
-/

namespace ArrayLang

/-- The first `n` items of the endless repetition of `items`. -/
def cyclic {α : Type} (items : List α) (n : Nat) : List α :=
  ((List.replicate (n / items.length + 1) items).flatten).take n

/-- A row of elements of one kind. -/
inductive Elements where
  /-- integers -/
  | plain (items : List Element)
  /-- the contents of boxes -/
  | boxed (items : List Value)
  deriving DecidableEq, Repr, Inhabited

namespace Elements

/-- What the elements are. -/
def kind : Elements → Kind
  | plain _ => .plain
  | boxed _ => .boxed

/-- The number of elements. -/
def length : Elements → Nat
  | plain items => items.length
  | boxed items => items.length

/-- There are no elements. -/
def isEmpty (e : Elements) : Bool := e.length == 0

/-- Exactly `n` elements, read cyclically from the start; impossible only when
some are wanted and there are none. -/
def tile? (e : Elements) (n : Nat) : Option Elements :=
  if 0 < n ∧ e.length = 0 then none
  else match e with
    | plain items => some (plain (cyclic items n))
    | boxed items => some (boxed (cyclic items n))

/-- The `length` elements from position `start` on, when there are so many. -/
def slice? (e : Elements) (start length : Nat) : Option Elements :=
  if start + length ≤ e.length then
    match e with
    | plain items => some (plain ((items.drop start).take length))
    | boxed items => some (boxed ((items.drop start).take length))
  else none

/-- All elements of the first row, then all of the second; rows of different
kinds do not mix. -/
def append? : Elements → Elements → Option Elements
  | plain xs, plain ys => some (plain (xs ++ ys))
  | boxed xs, boxed ys => some (boxed (xs ++ ys))
  | _, _ => none

end Elements

namespace Value

/-- The elements without their shape. -/
def elements : Value → Elements
  | plain _ items => .plain items
  | boxed _ items => .boxed items

/-- Lay elements out in a shape. -/
def ofElements (shape : Shape) : Elements → Value
  | .plain items => .plain shape items
  | .boxed items => .boxed shape items

@[simp] theorem ofElements_elements (v : Value) : ofElements v.shape v.elements = v := by
  cases v <;> rfl

@[simp] theorem shape_ofElements (s : Shape) (e : Elements) : (ofElements s e).shape = s := by
  cases e <;> rfl

@[simp] theorem elements_ofElements (s : Shape) (e : Elements) :
    (ofElements s e).elements = e := by
  cases e <;> rfl

@[simp] theorem length_elements (v : Value) : v.elements.length = v.count := by
  cases v <;> rfl

@[simp] theorem kind_elements (v : Value) : v.elements.kind = v.kind := by
  cases v <;> rfl

end Value

/-! ## Cyclic reading -/

/-- A repeated list is read at a position reduced by the list's length. -/
theorem getElem?_flatten_replicate {α : Type} (items : List α) (k i : Nat)
    (h : i < k * items.length) :
    (List.replicate k items).flatten[i]? = items[i % items.length]? := by
  induction k generalizing i with
  | zero => simp at h
  | succ k ih =>
    rw [List.replicate_succ, List.flatten_cons]
    by_cases hi : i < items.length
    · rw [List.getElem?_append_left hi, Nat.mod_eq_of_lt hi]
    · have hle : items.length ≤ i := Nat.le_of_not_lt hi
      rw [List.getElem?_append_right hle, ih (i - items.length) (by rw [Nat.succ_mul] at h; omega),
        ← Nat.mod_eq_sub_mod hle]

/-- Item `i` of the cyclic reading is item `i` modulo the length. -/
theorem getElem?_cyclic {α : Type} (items : List α) {n i : Nat} (h : i < n) :
    (cyclic items n)[i]? = items[i % items.length]? := by
  rw [cyclic, List.getElem?_take_of_lt h]
  by_cases hz : items.length = 0
  · rw [List.length_eq_zero_iff] at hz
    subst hz
    simp
  · apply getElem?_flatten_replicate
    have hpos : 0 < items.length := Nat.pos_of_ne_zero hz
    calc i < n := h
      _ < (n / items.length + 1) * items.length := by
        rw [Nat.mul_comm]; exact Nat.lt_mul_div_succ n hpos

/-- A cyclic reading of something has exactly the wanted length. -/
theorem length_cyclic {α : Type} {items : List α} {n : Nat} (h : n = 0 ∨ items ≠ []) :
    (cyclic items n).length = n := by
  rcases h with rfl | h
  · simp [cyclic]
  · have hpos : 0 < items.length := List.length_pos_iff.2 h
    have hlt : n < items.length * (n / items.length + 1) := Nat.lt_mul_div_succ n hpos
    simp only [cyclic, List.length_take, List.length_flatten, List.map_replicate,
      List.sum_replicate_nat]
    rw [Nat.mul_comm] at hlt
    omega

end ArrayLang
