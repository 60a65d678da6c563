import ArrayLang.EvalError
import ArrayLang.Value.Elements

set_option autoImplicit false

/-!
# What the verbs mean

A verb is applied to one array or to two.  It looks at its operands in a fixed order, so that
one cause is reported where several apply.  In a meaning with two operands `a` is the left one
and `w` the right one.
-/

namespace ArrayLang

/-! ## What verbs demand of their operands

A verb that computes with integers demands a plain operand; one that computes
with a single integer demands a plain operand of rank 0.  The kind is looked at
before the rank. -/

namespace Verb

/-- The integers of an operand that must be plain. -/
def integers (verb : Verb) : Value → Except EvalError (List Element)
  | .plain _ items => .ok items
  | .boxed _ _ => .error (.kindMismatch verb .plain .boxed)

/-- The integer of an operand that must be plain and of rank 0. -/
def integer (verb : Verb) (v : Value) : Except EvalError Element := do
  let _ ← integers verb v
  match v.toInteger? with
  | some n => .ok n
  | none => .error (.rankMismatch verb .scalar v.rank)

/-- The axis length that an integer stands for. -/
def axisLength (verb : Verb) (n : Element) : Except EvalError Nat :=
  match n.toLength? with
  | some length => .ok length
  | none => .error (.negativeLength verb n)

@[simp] theorem integer_scalar (verb : Verb) (n : Element) :
    integer verb (.scalar n) = .ok n := rfl

end Verb

/-! ## One operand -/

namespace Value

/-- The length of the first axis, and one for a scalar. -/
def firstLength (w : Value) : Nat := w.shape.headD 1

/-- The length of the first axis as an array. -/
def size (w : Value) : Value := scalar (.ofLength w.firstLength)

/-- The axis lengths as an array. -/
def shapeVector (w : Value) : Value := vector (w.shape.map Element.ofLength)

/-- The integers from zero up to, and without, the operand.  They may be more than a memory
can hold. -/
def iota (w : Value) : Except EvalError Value := do
  let n ← Verb.integer .tilde w
  let length ← Verb.axisLength .tilde n
  return vector ((List.range length).map Element.ofLength)

end Value

namespace Verb

/-- Apply the monadic meaning of a verb. -/
def monadic (verb : Verb) (w : Value) : Except EvalError Value :=
  match verb with
  | plus => .ok w
  | brace => .ok w.size
  | tilde => w.iota
  | less => .ok w.enclose
  | hash => .ok w.shapeVector
  | comma => .error (.unimplemented .comma .monadic)

end Verb

/-! ## Two operands -/

namespace Value

/-- Add two plain arrays of one shape, element by element. -/
def plus (a w : Value) : Except EvalError Value := do
  let xs ← Verb.integers .plus a
  let ys ← Verb.integers .plus w
  if a.shape ≠ w.shape then .error (.shapeMismatch .plus a.shape w.shape)
  else match (xs.zip ys).mapM fun (x, y) => Element.add? x y with
    | some sums => .ok (.plain a.shape sums)
    | none => .error (.overflow .plus)

/-- The cell of `w` at position `a` along its first axis: the array of the
remaining axes. -/
def select (a w : Value) : Except EvalError Value := do
  let index ← Verb.integer .brace a
  match w.shape with
  | [] => .error (.rankMismatch .brace .axes 0)
  | length :: rest =>
    match index.toLength? with
    | none => .error (.indexOutOfBounds index length)
    | some i =>
      if i < length then
        match w.elements.slice? (i * Shape.count rest) (Shape.count rest) with
        | some cell => .ok (.ofElements rest cell)
        | none => .error (.indexOutOfBounds index length)
      else .error (.indexOutOfBounds index length)

/-- The elements of `w`, read cyclically, laid out in the shape that the
elements of `a` give.  Every count below `countBound` is laid out, also one that no memory
can hold. -/
def reshape (a w : Value) : Except EvalError Value := do
  let lengths ← Verb.integers .hash a
  let shape ← lengths.mapM (Verb.axisLength .hash)
  if maxRank < shape.length then .error (.rankTooHigh shape.length)
  else match Shape.boundedCount? shape with
    | none => .error (.overflow .hash)
    | some count =>
      match w.elements.tile? count with
      | none => .error .emptySource
      | some elements => .ok (.ofElements shape elements)

/-- The elements of both arrays, one after the other, as a vector. -/
def catenate (a w : Value) : Except EvalError Value :=
  match a.elements.append? w.elements with
  | some elements => .ok (.ofElements [elements.length] elements)
  | none => .error (.kindMismatch .comma w.kind a.kind)

end Value

namespace Verb

/-- Apply the dyadic meaning of a verb. -/
def dyadic (verb : Verb) (a w : Value) : Except EvalError Value :=
  match verb with
  | plus => a.plus w
  | brace => a.select w
  | hash => a.reshape w
  | comma => a.catenate w
  | tilde => .error (.unimplemented .tilde .dyadic)
  | less => .error (.unimplemented .less .dyadic)

end Verb

end ArrayLang
