import ArrayLang.Element
import ArrayLang.Shape

set_option autoImplicit false

/-!
# Values

A value is an array.  All its elements are of one kind: a *plain* array holds
64-bit signed integers, a *boxed* array holds values.  The elements stand in
row-major order.  The type admits arrays whose shape and elements disagree; the
well-formed ones are those that `Value.ofElements?` accepts, level by level.
-/

namespace ArrayLang

/-- What the elements of an array are. -/
inductive Kind where
  /-- 64-bit signed integers -/
  | plain
  /-- whole arrays, each in a box -/
  | boxed
  deriving DecidableEq, Repr, Inhabited

namespace Kind

/-- The kind as messages spell it. -/
def text : Kind → String
  | plain => "plain"
  | boxed => "boxed"

end Kind

/-- An array: its shape and its elements in row-major order. -/
inductive Value where
  /-- an array of integers -/
  | plain (shape : Shape) (items : List Element)
  /-- an array of boxes -/
  | boxed (shape : Shape) (items : List Value)
  deriving Repr, Inhabited

namespace Value

/-! ## Building -/

/-- The rank-0 array of one integer. -/
def scalar (n : Element) : Value := .plain [] [n]

/-- The rank-1 array of the given integers. -/
def vector (items : List Element) : Value := .plain [items.length] items

/-- The rank-0 array whose one element is a box holding `v`. -/
def enclose (v : Value) : Value := .boxed [] [v]

/-! ## Inspecting -/

/-- The axis lengths. -/
def shape : Value → Shape
  | plain shape _ => shape
  | boxed shape _ => shape

/-- What the elements are. -/
def kind : Value → Kind
  | plain _ _ => .plain
  | boxed _ _ => .boxed

/-- The number of axes. -/
def rank (v : Value) : Nat := v.shape.rank

/-- The number of stored elements. -/
def count : Value → Nat
  | plain _ items => items.length
  | boxed _ items => items.length

/-- The array has no axes. -/
def isScalar (v : Value) : Bool := v.rank == 0

/-- The elements are boxes. -/
def isBoxed (v : Value) : Bool := v.kind == .boxed

/-- The integers of a plain array. -/
def integers? : Value → Option (List Element)
  | plain _ items => some items
  | boxed _ _ => none

/-- The contents of the boxes of a boxed array. -/
def contents? : Value → Option (List Value)
  | plain _ _ => none
  | boxed _ items => some items

/-- The integer of a rank-0 plain array. -/
def toInteger? : Value → Option Element
  | plain [] (n :: _) => some n
  | _ => none

/-- What a rank-0 box holds. -/
def disclose? : Value → Option Value
  | boxed [] (v :: _) => some v
  | _ => none

/-- Kind and rank in words, such as `plain rank-2`. -/
def description (v : Value) : String := v.kind.text ++ " rank-" ++ v.rank.repr

@[simp] theorem toInteger?_scalar (n : Element) : (scalar n).toInteger? = some n := rfl

@[simp] theorem disclose?_enclose (v : Value) : v.enclose.disclose? = some v := rfl

/-! ## Induction -/

/-- What holds of plain arrays, and of boxed arrays if it holds of what their
boxes hold, holds of all arrays. -/
theorem induction {P : Value → Prop} (plain : ∀ shape items, P (.plain shape items))
    (boxed : ∀ shape items, (∀ v ∈ items, P v) → P (.boxed shape items)) (v : Value) : P v := by
  refine @Value.rec P (fun items => ∀ v ∈ items, P v) plain boxed ?_ ?_ v
  · intro w hw
    cases hw
  · intro head tail hhead htail w hw
    rcases List.mem_cons.1 hw with rfl | hw
    · exact hhead
    · exact htail w hw

/-! ## Properties of every level -/

mutual

/-- The array has the property, and so has every array inside its boxes. -/
def Everywhere (P : Value → Prop) : Value → Prop
  | plain shape items => P (plain shape items)
  | boxed shape items => P (boxed shape items) ∧ EverywhereIn P items

/-- All arrays of a list have the property at every level. -/
def EverywhereIn (P : Value → Prop) : List Value → Prop
  | [] => True
  | v :: rest => v.Everywhere P ∧ EverywhereIn P rest

end

section Everywhere

variable {P : Value → Prop}

theorem Everywhere.here {v : Value} (h : v.Everywhere P) : P v := by
  cases v with
  | plain shape items => exact h
  | boxed shape items => exact h.1

theorem everywhereIn_iff (vs : List Value) : EverywhereIn P vs ↔ ∀ v ∈ vs, v.Everywhere P := by
  induction vs with
  | nil => simp [EverywhereIn]
  | cons v rest ih => simp [EverywhereIn, ih]

theorem everywhere_boxed_iff (shape : Shape) (items : List Value) :
    (boxed shape items).Everywhere P ↔ P (boxed shape items) ∧ ∀ v ∈ items, v.Everywhere P := by
  rw [Everywhere, everywhereIn_iff]

mutual

/-- A property that can be decided of one array can be decided of every level. -/
def decEverywhere [DecidablePred P] : (v : Value) → Decidable (v.Everywhere P)
  | plain shape items => inferInstanceAs (Decidable (P (plain shape items)))
  | boxed shape items =>
    have := decEverywhereIn items
    inferInstanceAs (Decidable (P (boxed shape items) ∧ EverywhereIn P items))

/-- So it can of all arrays of a list. -/
def decEverywhereIn [DecidablePred P] : (vs : List Value) → Decidable (EverywhereIn P vs)
  | [] => .isTrue trivial
  | v :: rest =>
    have := decEverywhere v
    have := decEverywhereIn rest
    inferInstanceAs (Decidable (v.Everywhere P ∧ EverywhereIn P rest))

end

instance [DecidablePred P] : DecidablePred (Everywhere P) := decEverywhere

end Everywhere

/-! ## Equality -/

mutual

/-- Arrays are equal when shape, kind and all elements are, through every box. -/
def decEq : (v w : Value) → Decidable (v = w)
  | plain s xs, plain t ys =>
    if h : s = t ∧ xs = ys then .isTrue (by rw [h.1, h.2])
    else .isFalse fun e => h (by injection e with hs hx; exact ⟨hs, hx⟩)
  | boxed s xs, boxed t ys =>
    match decEqAll xs ys with
    | .isTrue hx =>
      if hs : s = t then .isTrue (by rw [hs, hx])
      else .isFalse fun e => hs (by injection e)
    | .isFalse hx => .isFalse fun e => hx (by injection e)
  | plain _ _, boxed _ _ => .isFalse nofun
  | boxed _ _, plain _ _ => .isFalse nofun

/-- Two lists of arrays are equal when they are so element by element. -/
def decEqAll : (vs ws : List Value) → Decidable (vs = ws)
  | [], [] => .isTrue rfl
  | v :: vs, w :: ws =>
    match decEq v w with
    | .isTrue h =>
      match decEqAll vs ws with
      | .isTrue t => .isTrue (by rw [h, t])
      | .isFalse t => .isFalse fun e => t (by injection e)
    | .isFalse h => .isFalse fun e => h (by injection e)
  | [], _ :: _ => .isFalse nofun
  | _ :: _, [] => .isFalse nofun

end

instance : DecidableEq Value := decEq

end Value

end ArrayLang
