set_option autoImplicit false

/-!
# Integer elements

The elements of a plain array are 64-bit signed integers.  Addition is exact: a
sum outside the range is no element.  Axis lengths become elements by reduction
modulo `2 ^ 64` to the signed range, and an element is an axis length when it is
not negative.
-/

namespace ArrayLang

/-- An element of a plain array. -/
abbrev Element := Int64

namespace Element

/-- The exact sum, when it lies in the range of elements. -/
def add? (x y : Element) : Option Element :=
  if Int64.minValue.toInt ≤ x.toInt + y.toInt ∧ x.toInt + y.toInt ≤ Int64.maxValue.toInt then
    some (x + y)
  else none

/-- The number as an axis length, when it is not negative. -/
def toLength? (n : Element) : Option Nat :=
  if n < 0 then none else some n.toInt.toNat

/-- The axis lengths below this bound, `2 ^ 63`, are elements. -/
def lengthBound : Nat := 9223372036854775808

/-- An axis length as an element; lengths from `lengthBound` on wrap around. -/
def ofLength (n : Nat) : Element := Int64.ofNat n

/-- The number in decimal digits, with a minus sign when it is negative. -/
def text (n : Element) : String := n.toInt.repr

/-- A sum that is an element is the sum of the integers. -/
theorem toInt_of_add?_eq_some {x y z : Element} (h : add? x y = some z) :
    z.toInt = x.toInt + y.toInt := by
  unfold add? at h
  split at h
  · rename_i hr
    cases h
    rw [Int64.toInt_minValue, Int64.toInt_maxValue] at hr
    rw [Int64.toInt_add]
    exact Int.bmod_eq_of_le (by omega) (by omega)
  · cases h

/-- Lengths below the bound are kept. -/
theorem toInt_ofLength {n : Nat} (h : n < lengthBound) : (ofLength n).toInt = n := by
  unfold ofLength
  exact Int64.toInt_ofNat_of_lt h

end Element

end ArrayLang
