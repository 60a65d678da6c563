import ArrayLang.Value.Basic

set_option autoImplicit false

/-!
# Arrays as text

A scalar shows its element alone.  Any other array shows its axis lengths on a
line of their own and its elements below.  Every number is followed by a space.
A box shows as `< ` followed by its contents, whose later lines are indented two
spaces for every enclosing box.
-/

namespace ArrayLang.Value

/-- Two spaces for each enclosing box. -/
def indent (depth : Nat) : String := String.ofList (List.replicate (2 * depth) ' ')

/-- Each number followed by a space. -/
def numbers (texts : List String) : String := String.join (texts.map (· ++ " "))

/-- The line of axis lengths and the indentation of the line below it; nothing
for a scalar. -/
def header (depth : Nat) : Shape → String
  | [] => ""
  | n :: rest => numbers ((n :: rest).map Nat.repr) ++ "\n" ++ indent depth

mutual

/-- The text of an array inside `depth` boxes, the place of whose first line is
already reached. -/
def renderAt (depth : Nat) : Value → String
  | plain shape items =>
    header depth shape ++ numbers (items.map Element.text) ++ "\n"
  | boxed shape items => header depth shape ++ renderBoxes depth items

/-- The boxes of an array, one below the other; no boxes at all make an empty
line. -/
def renderBoxes (depth : Nat) : List Value → String
  | [] => "\n"
  | v :: rest => "< " ++ renderAt (depth + 1) v ++ renderMore depth rest

/-- The boxes after the first, each on an indented line of its own. -/
def renderMore (depth : Nat) : List Value → String
  | [] => ""
  | v :: rest => indent depth ++ "< " ++ renderAt (depth + 1) v ++ renderMore depth rest

end

/-- The text of an array. -/
def render (v : Value) : String := renderAt 0 v

end ArrayLang.Value
