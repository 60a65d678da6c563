import ArrayLang.Proofs.ReadBack
import ArrayLang.Proofs.StreamLines
import Mathlib.Data.List.Basic

set_option autoImplicit false

/-!
# The text of an array inside boxes

An array inside boxes is written with its indentation in place, line by line.  It might
as well be written as if it stood alone and be indented afterwards: the text inside so
many boxes is the text outside of all of them, hung by two spaces for each box.  So the
text of a boxed array is made of the texts of what its boxes hold.
-/

namespace ArrayLang

namespace Text

/-! ## Hanging a text -/

/-- The text with so many spaces in front of each of its lines but the first.  A line
begins after every line feed but one that ends the text. -/
def hang (spaces : Nat) : List Char → List Char
  | [] => []
  | [c] => [c]
  | c :: d :: rest =>
    if c = '\n' then c :: (List.replicate spaces ' ' ++ hang spaces (d :: rest))
    else c :: hang spaces (d :: rest)

theorem hang_cons_of_ne {c : Char} (h : c ≠ '\n') (spaces : Nat) (rest : List Char) :
    hang spaces (c :: rest) = c :: hang spaces rest := by
  cases rest with
  | nil => rfl
  | cons d rest => exact if_neg h

theorem hang_feed {rest : List Char} (h : rest ≠ []) (spaces : Nat) :
    hang spaces ('\n' :: rest) = '\n' :: (List.replicate spaces ' ' ++ hang spaces rest) := by
  cases rest with
  | nil => exact absurd rfl h
  | cons d rest => exact if_pos rfl

/-- Within its first line a text is left as it is. -/
theorem hang_append_of_not_mem {line : List Char} (h : '\n' ∉ line) (spaces : Nat)
    (rest : List Char) : hang spaces (line ++ rest) = line ++ hang spaces rest := by
  induction line with
  | nil => rfl
  | cons c line ih =>
    obtain ⟨hc, hline⟩ := not_or.1 (mt List.mem_cons.2 h)
    rw [List.cons_append, hang_cons_of_ne (Ne.symm hc), ih hline, List.cons_append]

theorem hang_ne_nil {text : List Char} (h : text ≠ []) (spaces : Nat) :
    hang spaces text ≠ [] := by
  fun_cases hang spaces text with
  | case1 => exact absurd rfl h
  | case2 c => exact List.cons_ne_nil c []
  | case3 d rest => exact List.cons_ne_nil _ _
  | case4 c d rest hc => exact List.cons_ne_nil _ _

/-- A text that was hung is hung further. -/
theorem hang_hang (more spaces : Nat) (text : List Char) :
    hang more (hang spaces text) = hang (more + spaces) text := by
  induction text using split_induction '\n' with
  | last line hline =>
    rw [← List.append_nil line, hang_append_of_not_mem hline, hang_append_of_not_mem hline,
      hang_append_of_not_mem hline]
    rfl
  | more line rest hline ih =>
    rw [hang_append_of_not_mem hline, hang_append_of_not_mem hline, hang_append_of_not_mem hline]
    cases rest with
    | nil => rfl
    | cons d rest =>
      -- The spaces put in before begin the line and are part of it.
      have hspaces : '\n' ∉ List.replicate spaces ' ' := by
        intro h
        cases List.eq_of_mem_replicate h
      have hne : d :: rest ≠ [] := List.cons_ne_nil d rest
      rw [hang_feed hne, hang_feed hne,
        hang_feed (List.append_ne_nil_of_right_ne_nil _ (hang_ne_nil hne spaces)),
        hang_append_of_not_mem hspaces, ih, ← List.append_assoc, List.replicate_append_replicate]

/-- The text is made of whole lines, and of at least one. -/
def EndsInFeed (text : List Char) : Prop := text.getLast? = some '\n'

theorem EndsInFeed.ne_nil {text : List Char} (h : EndsInFeed text) : text ≠ [] := by
  rintro rfl
  cases h

theorem EndsInFeed.append {text : List Char} (h : EndsInFeed text) (before : List Char) :
    EndsInFeed (before ++ text) := by
  rw [EndsInFeed, List.getLast?_append, h, Option.some_or]

theorem EndsInFeed.append_flatMap {α : Type} {text : List Char} {items : List α}
    {f : α → List Char} (h : EndsInFeed text) (hitems : ∀ x ∈ items, EndsInFeed (f x)) :
    EndsInFeed (text ++ items.flatMap f) := by
  induction items generalizing text with
  | nil => simpa using h
  | cons x items ih =>
    obtain ⟨hx, hrest⟩ := List.forall_mem_cons.1 hitems
    rw [List.flatMap_cons]
    exact (ih hx hrest).append text

/-- What follows whole lines begins a line of its own. -/
theorem hang_append {text rest : List Char} (h : EndsInFeed text) (hrest : rest ≠ [])
    (spaces : Nat) :
    hang spaces (text ++ rest) =
      hang spaces text ++ (List.replicate spaces ' ' ++ hang spaces rest) := by
  induction text using split_induction '\n' with
  | last line hline => exact absurd (List.mem_of_getLast? h) hline
  | more line tail hline ih =>
    rw [List.append_assoc, hang_append_of_not_mem hline, hang_append_of_not_mem hline,
      List.append_assoc, List.cons_append]
    congr 1
    cases tail with
    | nil => exact hang_feed hrest spaces
    | cons d tail =>
      have htail : EndsInFeed (d :: tail) := by
        rw [EndsInFeed, List.getLast?_append] at h
        simpa [EndsInFeed] using h
      rw [hang_feed (List.append_ne_nil_of_right_ne_nil _ hrest),
        hang_feed (List.cons_ne_nil d tail), ih htail, List.cons_append, List.append_assoc]

/-- An empty line is a line too; after the last line feed there is none. -/
example : hang 2 "2 0 \n\n< 7 \n".toList = "2 0 \n  \n  < 7 \n".toList := by decide

/-- Texts of whole lines, one below the other, are hung one by one. -/
theorem hang_append_flatMap {α : Type} {text : List Char} {items : List α} {f : α → List Char}
    (h : EndsInFeed text) (hitems : ∀ x ∈ items, EndsInFeed (f x)) (spaces : Nat) :
    hang spaces (text ++ items.flatMap f) =
      hang spaces text ++
        items.flatMap fun x => List.replicate spaces ' ' ++ hang spaces (f x) := by
  induction items generalizing text with
  | nil => simp
  | cons x items ih =>
    obtain ⟨hx, hrest⟩ := List.forall_mem_cons.1 hitems
    have hne : f x ++ items.flatMap f ≠ [] := List.append_ne_nil_of_left_ne_nil hx.ne_nil _
    rw [List.flatMap_cons, hang_append h hne, ih hx hrest, List.flatMap_cons, List.append_assoc]

end Text

open Text (hang EndsInFeed)

/-! ## Lines of numbers -/

theorem endsInFeed_numberLine (words : List (List Char)) : EndsInFeed (numberLine words) := by
  simp [EndsInFeed, numberLine]

/-- A line of numbers is one line. -/
theorem hang_numberLine {words : List (List Char)} (h : ∀ word ∈ words, IsNumber word)
    (spaces : Nat) : hang spaces (numberLine words) = numberLine words := by
  have hline : '\n' ∉ words.flatMap fun word => word ++ [' '] := by
    intro hfeed
    obtain ⟨word, hword, hmem⟩ := List.mem_flatMap.1 hfeed
    rcases List.mem_append.1 hmem with hmem | hmem
    · exact (h word hword).not_mem (by decide) (by decide) hmem
    · cases List.mem_singleton.1 hmem
  rw [numberLine, Text.hang_append_of_not_mem hline]
  rfl

namespace Value

/-! ## Boxes below each other -/

/-- The text of one box of an array inside so many boxes. -/
def boxText (depth : Nat) (v : Value) : List Char := '<' :: ' ' :: (renderAt (depth + 1) v).toList

theorem toList_renderMore (depth : Nat) (vs : List Value) :
    (renderMore depth vs).toList =
      vs.flatMap fun v => List.replicate (2 * depth) ' ' ++ boxText depth v := by
  induction vs with
  | nil => rfl
  | cons v rest ih =>
    rw [toList_renderMore_cons, toList_renderBoxes_cons, ih, List.flatMap_cons, List.append_assoc]
    rfl

theorem toList_renderBoxes (depth : Nat) (v : Value) (rest : List Value) :
    (renderBoxes depth (v :: rest)).toList =
      boxText depth v ++
        rest.flatMap fun u => List.replicate (2 * depth) ' ' ++ boxText depth u := by
  rw [toList_renderBoxes_cons, toList_renderMore]
  rfl

/-- Outside of all boxes nothing stands between the boxes of an array. -/
theorem toList_renderBoxes_zero (v : Value) (rest : List Value) :
    (renderBoxes 0 (v :: rest)).toList = (v :: rest).flatMap (boxText 0) := by
  rw [toList_renderBoxes, List.flatMap_cons]
  rfl

/-! ## Every text is made of whole lines -/

theorem endsInFeed_of_body {v : Value} {depth : Nat} (h : EndsInFeed (v.body depth)) :
    EndsInFeed (renderAt depth v).toList := by
  cases hshape : v.shape with
  | nil =>
    rw [toList_renderAt_scalar hshape]
    exact h
  | cons n axes =>
    rw [toList_renderAt_axes hshape]
    exact (h.append _).append _

theorem endsInFeed_renderAt (depth : Nat) (v : Value) : EndsInFeed (renderAt depth v).toList := by
  induction v using Value.induction generalizing depth with
  | plain shape items => exact endsInFeed_of_body (endsInFeed_numberLine _)
  | boxed shape items ih =>
    apply endsInFeed_of_body
    cases items with
    | nil =>
      rw [body_of_count_eq_zero rfl]
      rfl
    | cons v rest =>
      have hbox (u : Value) (hu : u ∈ v :: rest) : EndsInFeed (boxText depth u) :=
        (ih u hu (depth + 1)).append ['<', ' ']
      rw [body, toList_renderBoxes]
      apply (hbox v List.mem_cons_self).append_flatMap
      intro u hu
      exact (hbox u (List.mem_cons_of_mem v hu)).append _

theorem endsInFeed_boxText (depth : Nat) (v : Value) : EndsInFeed (boxText depth v) :=
  (endsInFeed_renderAt (depth + 1) v).append ['<', ' ']

/-! ## Indentation afterwards -/

/-- The text inside so many boxes is the text outside of all of them, hung by two spaces
for each box. -/
def IsHung (v : Value) : Prop :=
  ∀ depth, (renderAt depth v).toList = hang (2 * depth) v.render.toList

theorem body_ne_nil (v : Value) (depth : Nat) : v.body depth ≠ [] := by
  by_cases hcount : v.count = 0
  · rw [body_of_count_eq_zero hcount]
    exact List.cons_ne_nil _ _
  · obtain ⟨c, rest, hbody, -⟩ := body_head hcount depth
    rw [hbody]
    exact List.cons_ne_nil c rest

/-- It is enough to look below the line of axis lengths: it is one line, and never the
last. -/
theorem isHung_of_body {v : Value} (h : ∀ depth, v.body depth = hang (2 * depth) (v.body 0)) :
    v.IsHung := by
  intro depth
  rw [render]
  cases hshape : v.shape with
  | nil => rw [toList_renderAt_scalar hshape, toList_renderAt_scalar hshape, h depth]
  | cons n axes =>
    rw [toList_renderAt_axes hshape, toList_renderAt_axes hshape, h depth, Nat.mul_zero,
      List.replicate_zero, List.nil_append,
      Text.hang_append (endsInFeed_numberLine _) (body_ne_nil v 0),
      hang_numberLine (isNumber_lengths v.shape)]

theorem IsHung.boxText {v : Value} (h : v.IsHung) (depth : Nat) :
    boxText depth v = hang (2 * depth) (boxText 0 v) := by
  have hmark : '\n' ∉ ['<', ' '] := by decide
  have hbox (inner : List Char) : hang (2 * depth) ('<' :: ' ' :: inner) =
      '<' :: ' ' :: hang (2 * depth) inner := Text.hang_append_of_not_mem hmark _ inner
  rw [Value.boxText, Value.boxText, hbox, h (depth + 1), h (0 + 1), Text.hang_hang]
  rfl

theorem renderBoxes_hung {v : Value} {rest : List Value} (h : ∀ u ∈ v :: rest, u.IsHung)
    (depth : Nat) :
    (renderBoxes depth (v :: rest)).toList =
      hang (2 * depth) (renderBoxes 0 (v :: rest)).toList := by
  obtain ⟨hv, hrest⟩ := List.forall_mem_cons.1 h
  rw [toList_renderBoxes, toList_renderBoxes_zero, List.flatMap_cons,
    Text.hang_append_flatMap (endsInFeed_boxText 0 v) fun u _ => endsInFeed_boxText 0 u,
    hv.boxText depth]
  congr 1
  -- Left are the boxes after the first, each on an indented line of its own.
  apply List.flatMap_congr
  intro u hu
  rw [(hrest u hu).boxText depth]

theorem isHung (v : Value) : v.IsHung := by
  induction v using Value.induction with
  | plain shape items =>
    apply isHung_of_body
    intro depth
    exact (hang_numberLine (isNumber_items items) (2 * depth)).symm
  | boxed shape items ih =>
    apply isHung_of_body
    intro depth
    cases items with
    | nil =>
      rw [body_of_count_eq_zero rfl, body_of_count_eq_zero rfl]
      rfl
    | cons v rest => exact renderBoxes_hung ih depth

/-- The axis lengths on a line of their own, or nothing for a scalar. -/
def lengthsLine (shape : Shape) : List Char :=
  if shape.rank = 0 then [] else numberLine (shape.map fun n => n.repr.toList)

/-- Inside of boxes an array has the text that it has outside, hung by two spaces for each
box.  The text of a boxed array, if it has elements, is the line of its axis lengths and
the texts of what the boxes hold, each hung by two spaces behind the mark of a box. -/
theorem text_in_boxes_is_text_hung :
    (∀ (v : Value) (depth : Nat),
      (renderAt depth v).toList = hang (2 * depth) v.render.toList) ∧
    ∀ (shape : Shape) (v : Value) (rest : List Value),
      (boxed shape (v :: rest)).render.toList =
        lengthsLine shape ++
          (v :: rest).flatMap fun u => "< ".toList ++ hang 2 u.render.toList := by
  refine ⟨isHung, ?_⟩
  intro shape v rest
  have hboxes : (renderBoxes 0 (v :: rest)).toList =
      (v :: rest).flatMap fun u => "< ".toList ++ hang 2 u.render.toList := by
    rw [toList_renderBoxes_zero]
    apply List.flatMap_congr
    intro u _
    rw [boxText, isHung u (0 + 1)]
    rfl
  rw [← hboxes, render]
  cases shape with
  | nil =>
    rw [toList_renderAt_scalar rfl]
    rfl
  | cons n axes =>
    rw [toList_renderAt_axes rfl]
    rfl

end Value

end ArrayLang
