import ArrayLang.Proofs.NumberLines
import ArrayLang.Transcript

set_option autoImplicit false

/-!
# Written values can be read back

The text of an array does not say where it ends: a number on a line may be a
scalar or the length of a vector, and an empty line may be the elements of an
array that has none or the end of a value.  What decides is what comes next.
Below a line of axis lengths the text goes on at the indentation of the array;
after a whole array it goes on further to the left, or, outside of all boxes,
with one empty line that no other follows.  Up to the kind of arrays without
elements, which no text shows, a sequence of values is determined by its text.
-/

namespace ArrayLang

namespace Value

/-! ## What a text can show -/

/-- Shape and elements agree in number, through every box. -/
def Filled (v : Value) : Prop := v.Everywhere fun u => u.shape.count = u.count

instance : DecidablePred Filled :=
  inferInstanceAs (DecidablePred (Everywhere fun u => u.shape.count = u.count))

mutual

/-- The array with all arrays in it that have no elements made plain. -/
def asShown : Value → Value
  | plain shape items => plain shape items
  | boxed shape [] => plain shape []
  | boxed shape (v :: rest) => boxed shape (v.asShown :: allAsShown rest)

/-- All arrays of a list, as shown. -/
def allAsShown : List Value → List Value
  | [] => []
  | v :: rest => v.asShown :: allAsShown rest

end

theorem allAsShown_eq_map (vs : List Value) : allAsShown vs = vs.map asShown := by
  induction vs with
  | nil => rfl
  | cons v rest ih => rw [allAsShown, ih, List.map_cons]

theorem asShown_boxed_cons (shape : Shape) (v : Value) (rest : List Value) :
    (boxed shape (v :: rest)).asShown = boxed shape ((v :: rest).map asShown) := by
  rw [asShown, allAsShown_eq_map, List.map_cons]

/-! ## The parts of a text -/

/-- The text below the line of axis lengths, or all of it for a scalar. -/
def body (depth : Nat) : Value → List Char
  | plain _ items => numberLine (items.map fun x => x.text.toList)
  | boxed _ items => (renderBoxes depth items).toList

@[simp] theorem toList_indent (depth : Nat) :
    (indent depth).toList = List.replicate (2 * depth) ' ' := by
  simp [indent]

theorem toList_numbers_feed (texts : List String) :
    (numbers texts ++ "\n").toList = numberLine (texts.map String.toList) := by
  induction texts with
  | nil => decide
  | cons text rest ih =>
    rw [List.map_cons, numberLine_cons, ← ih]
    simp [numbers]

theorem isNumber_lengths (shape : Shape) :
    ∀ word ∈ shape.map (fun n => n.repr.toList), IsNumber word := by
  intro word hword
  obtain ⟨n, -, rfl⟩ := List.mem_map.1 hword
  exact isNumber_repr n

theorem isNumber_items (items : List Element) :
    ∀ word ∈ items.map (fun x => x.text.toList), IsNumber word := by
  intro word hword
  obtain ⟨x, -, rfl⟩ := List.mem_map.1 hword
  exact x.isNumber_text

theorem toList_renderAt_scalar {v : Value} (h : v.shape = []) (depth : Nat) :
    (renderAt depth v).toList = v.body depth := by
  cases v with
  | plain shape items =>
    cases h
    rw [renderAt, body, header, String.empty_append, toList_numbers_feed, List.map_map]
    rfl
  | boxed shape items =>
    cases h
    rw [renderAt, body, header, String.empty_append]

theorem toList_renderAt_axes {v : Value} {n : Nat} {rest : Shape} (h : v.shape = n :: rest)
    (depth : Nat) :
    (renderAt depth v).toList =
      numberLine (v.shape.map fun m => m.repr.toList) ++
        (List.replicate (2 * depth) ' ' ++ v.body depth) := by
  have hheader : (header depth v.shape).toList =
      numberLine (v.shape.map fun m => m.repr.toList) ++ List.replicate (2 * depth) ' ' := by
    rw [h, header, String.toList_append, toList_numbers_feed, List.map_map, toList_indent]
    rfl
  cases v with
  | plain shape items =>
    rw [renderAt, String.append_assoc, String.toList_append, toList_numbers_feed, List.map_map]
    rw [Value.shape] at hheader ⊢
    rw [hheader, List.append_assoc]
    rfl
  | boxed shape items =>
    rw [renderAt, String.toList_append]
    rw [Value.shape] at hheader ⊢
    rw [hheader, List.append_assoc]
    rfl

theorem toList_renderMore_cons (depth : Nat) (v : Value) (rest : List Value) :
    (renderMore depth (v :: rest)).toList =
      List.replicate (2 * depth) ' ' ++ (renderBoxes depth (v :: rest)).toList := by
  rw [renderMore, renderBoxes]
  simp

theorem toList_renderBoxes_cons (depth : Nat) (v : Value) (rest : List Value) :
    (renderBoxes depth (v :: rest)).toList =
      '<' :: ' ' :: ((renderAt (depth + 1) v).toList ++ (renderMore depth rest).toList) := by
  rw [renderBoxes]
  simp

/-! ## How a text begins -/

/-- A character that can be the first of a number or of a box. -/
def IsOpening (c : Char) : Prop := IsNumeral c ∨ c = '<'

theorem IsOpening.ne {c d : Char} (hc : IsOpening c) (hdigit : d.isDigit = false)
    (hminus : d ≠ '-') (hbox : d ≠ '<') : c ≠ d := by
  rcases hc with h | rfl
  · exact h.ne hdigit hminus
  · exact hbox.symm

theorem body_of_count_eq_zero {v : Value} (h : v.count = 0) (depth : Nat) :
    v.body depth = ['\n'] := by
  cases v with
  | plain shape items =>
    rw [List.eq_nil_of_length_eq_zero h]
    rfl
  | boxed shape items =>
    rw [List.eq_nil_of_length_eq_zero h, body, renderBoxes]
    decide

/-- The elements of a plain array, if any, begin with a number. -/
theorem body_plain_head {shape : Shape} {items : List Element} (h : items ≠ []) (depth : Nat) :
    ∃ c rest, (plain shape items).body depth = c :: rest ∧ IsNumeral c := by
  cases items with
  | nil => exact absurd rfl h
  | cons x items => exact numberLine_head x.isNumber_text _

/-- The elements of a boxed array, if any, begin with a box. -/
theorem body_boxed_head {shape : Shape} {items : List Value} (h : items ≠ []) (depth : Nat) :
    ∃ rest, (boxed shape items).body depth = '<' :: rest := by
  cases items with
  | nil => exact absurd rfl h
  | cons v items => exact ⟨_, toList_renderBoxes_cons depth v items⟩

theorem body_head {v : Value} (h : v.count ≠ 0) (depth : Nat) :
    ∃ c rest, v.body depth = c :: rest ∧ IsOpening c := by
  cases v with
  | plain shape items =>
    have hitems : items ≠ [] := fun hnil => h (congrArg List.length hnil)
    obtain ⟨c, rest, hbody, hc⟩ := body_plain_head hitems depth
    exact ⟨c, rest, hbody, Or.inl hc⟩
  | boxed shape items =>
    have hitems : items ≠ [] := fun hnil => h (congrArg List.length hnil)
    obtain ⟨rest, hbody⟩ := body_boxed_head hitems depth
    exact ⟨'<', rest, hbody, Or.inr rfl⟩

theorem Filled.count_eq {v : Value} (h : v.Filled) : v.shape.count = v.count := h.here

/-- Inside the boxes of a filled array there are filled arrays. -/
theorem Filled.contents {shape : Shape} {items : List Value} (h : (boxed shape items).Filled) :
    ∀ v ∈ items, v.Filled :=
  ((everywhere_boxed_iff shape items).1 h).2

theorem renderAt_head {v : Value} (h : v.Filled) (depth : Nat) :
    ∃ c rest, (renderAt depth v).toList = c :: rest ∧ IsOpening c := by
  cases hshape : v.shape with
  | nil =>
    rw [toList_renderAt_scalar hshape]
    apply body_head
    rw [← h.count_eq, hshape, Shape.count_nil]
    decide
  | cons n axes =>
    rw [toList_renderAt_axes hshape, hshape]
    obtain ⟨c, rest, hline, hc⟩ :=
      numberLine_head (isNumber_repr n) (axes.map fun m => m.repr.toList)
    rw [List.map_cons, hline]
    exact ⟨c, _, rfl, Or.inl hc⟩

/-! ## What comes after an array -/

/-- The text can come after an array inside so many boxes.  Inside of boxes its
first line is indented less than the lines of the array; outside of all boxes
it begins with an empty line, and the next line is not empty. -/
def Follows : Nat → List Char → Prop
  | 0, text => ∃ rest, text = '\n' :: rest ∧ rest.head? ≠ some '\n'
  | depth + 1, text =>
    ∃ k c rest, k ≤ depth ∧ c ≠ ' ' ∧ text = List.replicate (2 * k) ' ' ++ c :: rest

theorem Follows.succ {depth : Nat} {text : List Char} (h : Follows depth text) :
    Follows (depth + 1) text := by
  cases depth with
  | zero =>
    obtain ⟨rest, rfl, -⟩ := h
    exact ⟨0, '\n', rest, Nat.le_refl 0, by decide, rfl⟩
  | succ depth =>
    obtain ⟨k, c, rest, hk, hc, rfl⟩ := h
    exact ⟨k, c, rest, Nat.le_succ_of_le hk, hc, rfl⟩

/-- After the contents of a box come the next boxes of the array or, if it was
the last, what comes after the array. -/
theorem follows_renderMore {depth : Nat} {text : List Char} (h : Follows depth text)
    (vs : List Value) : Follows (depth + 1) ((renderMore depth vs).toList ++ text) := by
  cases vs with
  | nil => exact h.succ
  | cons v rest =>
    rw [toList_renderMore_cons, toList_renderBoxes_cons, List.append_assoc]
    exact ⟨depth, '<', _, Nat.le_refl depth, by decide, rfl⟩

theorem replicate_append_cons_ne {m n : Nat} (hmn : m < n) {c d : Char} (hc : c ≠ d)
    (rest text : List Char) : List.replicate m d ++ c :: rest ≠ List.replicate n d ++ text := by
  intro h
  obtain ⟨k, rfl⟩ := Nat.exists_eq_add_of_lt hmn
  rw [Nat.add_assoc, ← List.replicate_append_replicate, List.append_assoc] at h
  have htail := List.append_cancel_left h
  rw [List.replicate_succ, List.cons_append] at htail
  exact hc (List.cons.inj htail).1

/-- What comes after an array is not what would be below its first line, were
that line one of axis lengths. -/
theorem Follows.ne_body {depth : Nat} {r s : List Char} (hr : Follows depth r)
    (hs : Follows depth s) (v : Value) :
    r ≠ List.replicate (2 * depth) ' ' ++ (v.body depth ++ s) := by
  cases depth with
  | zero =>
    obtain ⟨rest, rfl, hrest⟩ := hr
    obtain ⟨tail, rfl, -⟩ := hs
    intro h
    by_cases hcount : v.count = 0
    · -- An empty body and the end of a value are two empty lines in a row.
      rw [body_of_count_eq_zero hcount] at h
      apply hrest
      rw [(List.cons.inj h).2]
      rfl
    · obtain ⟨c, text, hbody, hc⟩ := body_head hcount 0
      rw [hbody] at h
      exact hc.ne (by decide) (by decide) (by decide) (List.cons.inj h).1.symm
  | succ depth =>
    obtain ⟨k, c, rest, hk, hc, rfl⟩ := hr
    exact replicate_append_cons_ne (by omega) hc rest _

/-! ## Reading one array -/

/-- Up to the kind of arrays without elements, the text of the array inside any
number of boxes is that of no other array, and it is told from what follows. -/
def Readable (v : Value) : Prop :=
  ∀ ⦃depth : Nat⦄ ⦃w : Value⦄ ⦃r s : List Char⦄, v.Filled → w.Filled →
    Follows depth r → Follows depth s →
    (renderAt depth v).toList ++ r = (renderAt depth w).toList ++ s →
      v.asShown = w.asShown ∧ r = s

/-- Arrays of one shape have the same number of boxes, so that only their
contents have to be read. -/
theorem renderMore_injective {depth : Nat} {vs ws : List Value} {r s : List Char}
    (hread : ∀ v ∈ vs, v.Readable) (hlength : vs.length = ws.length)
    (hvs : ∀ v ∈ vs, v.Filled) (hws : ∀ w ∈ ws, w.Filled) (hr : Follows depth r)
    (hs : Follows depth s)
    (h : (renderMore depth vs).toList ++ r = (renderMore depth ws).toList ++ s) :
    vs.map asShown = ws.map asShown ∧ r = s := by
  induction vs generalizing ws with
  | nil =>
    cases ws with
    | nil => exact ⟨rfl, h⟩
    | cons w ws => cases hlength
  | cons v vs ih =>
    cases ws with
    | nil => cases hlength
    | cons w ws =>
      rw [toList_renderMore_cons, toList_renderMore_cons, toList_renderBoxes_cons,
        toList_renderBoxes_cons, List.append_assoc, List.append_assoc] at h
      have hboxes := List.append_cancel_left h
      simp only [List.cons_append, List.cons.injEq, true_and, List.append_assoc] at hboxes
      obtain ⟨hv, hvs⟩ := List.forall_mem_cons.1 hvs
      obtain ⟨hw, hws⟩ := List.forall_mem_cons.1 hws
      -- The contents of the first box are one box deeper than the boxes after it.
      obtain ⟨hhead, hmore⟩ := hread v List.mem_cons_self hv hw
        (follows_renderMore hr vs) (follows_renderMore hs ws) hboxes
      obtain ⟨htail, hrs⟩ := ih (fun u hu => hread u (List.mem_cons_of_mem v hu))
        (Nat.succ.inj hlength) hvs hws hmore
      rw [List.map_cons, List.map_cons, hhead, htail]
      exact ⟨rfl, hrs⟩

/-- Plain and boxed arrays of one shape have the same text only if they have no
elements. -/
theorem body_plain_boxed {depth : Nat} {shape : Shape} {items : List Element}
    {contents : List Value} {r s : List Char} (hlength : items.length = contents.length)
    (h : (plain shape items).body depth ++ r = (boxed shape contents).body depth ++ s) :
    (plain shape items).asShown = (boxed shape contents).asShown ∧ r = s := by
  cases contents with
  | nil =>
    rw [List.eq_nil_of_length_eq_zero hlength] at h ⊢
    rw [body_of_count_eq_zero rfl, body_of_count_eq_zero rfl] at h
    refine ⟨?_, List.append_cancel_left h⟩
    rw [asShown, asShown]
  | cons v contents =>
    have hitems : items ≠ [] := by
      rintro rfl
      cases hlength
    obtain ⟨c, text, hplain, hc⟩ := body_plain_head hitems depth
    obtain ⟨rest, hboxed⟩ := body_boxed_head (List.cons_ne_nil v contents) depth
    rw [hplain, hboxed] at h
    exact absurd (List.cons.inj h).1 (hc.ne (by decide) (by decide))

theorem body_plain_injective {depth : Nat} {s t : Shape} {xs ys : List Element}
    {r u : List Char} (h : (plain s xs).body depth ++ r = (plain t ys).body depth ++ u) :
    xs = ys ∧ r = u := by
  obtain ⟨hwords, hru⟩ := numberLine_injective (isNumber_items xs) (isNumber_items ys) h
  refine ⟨?_, hru⟩
  exact (List.map_inj_right fun _ _ heq => Element.text_injective heq).1 hwords

theorem body_boxed_injective {depth : Nat} {shape : Shape} {vs ws : List Value}
    {r s : List Char} (hread : ∀ v ∈ vs, v.Readable) (hvs : (boxed shape vs).Filled)
    (hws : (boxed shape ws).Filled) (hr : Follows depth r) (hs : Follows depth s)
    (h : (boxed shape vs).body depth ++ r = (boxed shape ws).body depth ++ s) :
    (boxed shape vs).asShown = (boxed shape ws).asShown ∧ r = s := by
  have hlength : vs.length = ws.length := hvs.count_eq.symm.trans hws.count_eq
  cases vs with
  | nil =>
    rw [List.eq_nil_of_length_eq_zero hlength.symm] at h ⊢
    exact ⟨rfl, List.append_cancel_left h⟩
  | cons v vs =>
    cases ws with
    | nil => cases hlength
    | cons w ws =>
      have hmore : (renderMore depth (v :: vs)).toList ++ r =
          (renderMore depth (w :: ws)).toList ++ s := by
        rw [toList_renderMore_cons, toList_renderMore_cons, List.append_assoc, List.append_assoc]
        exact congrArg _ h
      obtain ⟨hitems, hrs⟩ := renderMore_injective hread hlength hvs.contents hws.contents
        hr hs hmore
      rw [asShown_boxed_cons, asShown_boxed_cons, hitems]
      exact ⟨rfl, hrs⟩

theorem body_injective {depth : Nat} {v w : Value} {r s : List Char}
    (hread : ∀ items, v.contents? = some items → ∀ u ∈ items, u.Readable)
    (hshape : v.shape = w.shape) (hv : v.Filled) (hw : w.Filled) (hr : Follows depth r)
    (hs : Follows depth s) (h : v.body depth ++ r = w.body depth ++ s) :
    v.asShown = w.asShown ∧ r = s := by
  cases v with
  | plain shape items =>
    cases w with
    | plain shape' items' =>
      cases hshape
      obtain ⟨rfl, hrs⟩ := body_plain_injective h
      exact ⟨rfl, hrs⟩
    | boxed shape' items' =>
      cases hshape
      exact body_plain_boxed (hv.count_eq.symm.trans hw.count_eq) h
  | boxed shape items =>
    cases w with
    | plain shape' items' =>
      cases hshape
      obtain ⟨hshown, hrs⟩ := body_plain_boxed (hw.count_eq.symm.trans hv.count_eq) h.symm
      exact ⟨hshown.symm, hrs.symm⟩
    | boxed shape' items' =>
      cases hshape
      exact body_boxed_injective (hread items rfl) hv hw hr hs h

/-- A scalar and a line of axis lengths may look the same; below them the texts
differ. -/
theorem renderAt_scalar_ne_axes {depth : Nat} {v w : Value} {n : Nat} {axes : Shape}
    {r s : List Char} (hscalar : v.shape = []) (haxes : w.shape = n :: axes) (hv : v.Filled)
    (hr : Follows depth r) (hs : Follows depth s) :
    (renderAt depth v).toList ++ r ≠ (renderAt depth w).toList ++ s := by
  intro h
  rw [toList_renderAt_scalar hscalar, toList_renderAt_axes haxes, haxes, List.append_assoc] at h
  cases v with
  | plain shape items =>
    -- The lines may be equal; then what follows the scalar would be a body.
    obtain ⟨-, hbelow⟩ :=
      numberLine_injective (isNumber_items items) (isNumber_lengths (n :: axes)) h
    rw [List.append_assoc] at hbelow
    exact hr.ne_body hs w hbelow
  | boxed shape items =>
    have hitems : items ≠ [] := by
      rintro rfl
      have hcount := hv.count_eq
      rw [hscalar] at hcount
      cases hcount
    obtain ⟨text, hboxed⟩ := body_boxed_head hitems depth
    obtain ⟨c, rest, hline, hc⟩ :=
      numberLine_head (isNumber_repr n) (axes.map fun m => m.repr.toList)
    rw [hboxed, List.map_cons, hline] at h
    exact hc.ne (by decide) (by decide) (List.cons.inj h).1.symm

theorem readable_of_contents {v : Value}
    (hread : ∀ items, v.contents? = some items → ∀ u ∈ items, u.Readable) : v.Readable := by
  intro depth w r s hv hw hr hs h
  cases hvshape : v.shape with
  | nil =>
    cases hwshape : w.shape with
    | nil =>
      rw [toList_renderAt_scalar hvshape, toList_renderAt_scalar hwshape] at h
      exact body_injective hread (hvshape.trans hwshape.symm) hv hw hr hs h
    | cons m axes => exact absurd h (renderAt_scalar_ne_axes hvshape hwshape hv hr hs)
  | cons n axes =>
    cases hwshape : w.shape with
    | nil => exact absurd h.symm (renderAt_scalar_ne_axes hwshape hvshape hw hs hr)
    | cons m axes' =>
      rw [toList_renderAt_axes hvshape, toList_renderAt_axes hwshape] at h
      simp only [List.append_assoc] at h
      obtain ⟨hlengths, hbelow⟩ := numberLine_injective (isNumber_lengths v.shape)
        (isNumber_lengths w.shape) h
      have hshape : v.shape = w.shape :=
        (List.map_inj_right fun _ _ heq => repr_injective heq).1 hlengths
      exact body_injective hread hshape hv hw hr hs (List.append_cancel_left hbelow)

theorem readable (v : Value) : v.Readable := by
  induction v using Value.induction with
  | plain shape items =>
    apply readable_of_contents
    intro contents hcontents
    cases hcontents
  | boxed shape items ih =>
    apply readable_of_contents
    intro contents hcontents
    cases hcontents
    exact ih

/-! ## What a text does not show -/

theorem renderMore_asShown {depth : Nat} {vs : List Value}
    (h : ∀ v ∈ vs, ∀ depth, renderAt depth v.asShown = renderAt depth v) :
    renderMore depth (vs.map asShown) = renderMore depth vs := by
  induction vs with
  | nil => rfl
  | cons v rest ih =>
    rw [List.map_cons, renderMore, renderMore, h v List.mem_cons_self,
      ih fun w hw => h w (List.mem_cons_of_mem v hw)]

theorem renderAt_asShown (depth : Nat) (v : Value) :
    renderAt depth v.asShown = renderAt depth v := by
  induction v using Value.induction generalizing depth with
  | plain shape items => rw [asShown]
  | boxed shape items ih =>
    cases items with
    | nil =>
      rw [asShown, renderAt, renderAt, renderBoxes, String.append_assoc]
      rfl
    | cons v rest =>
      rw [asShown_boxed_cons, renderAt, renderAt, List.map_cons, renderBoxes, renderBoxes,
        ih v List.mem_cons_self,
        renderMore_asShown fun w hw => ih w (List.mem_cons_of_mem v hw)]

end Value

/-! ## Reading a sequence -/

namespace Transcript

open Value

/-- What a session writes that comes to these values, one after the other. -/
def written (vs : List Value) : String := String.join (vs.map fun v => outText (.value v))

theorem toList_written_cons (v : Value) (vs : List Value) :
    (written (v :: vs)).toList = (renderAt 0 v).toList ++ '\n' :: (written vs).toList := by
  simp [written, outText, render]

theorem written_congr {vs ws : List Value} (h : vs.map asShown = ws.map asShown) :
    written vs = written ws := by
  have hshown (us : List Value) : written (us.map asShown) = written us := by
    rw [written, written, List.map_map]
    congr 1
    apply List.map_congr_left
    intro u _
    exact congrArg (· ++ "\n") (renderAt_asShown 0 u)
  rw [← hshown vs, h, hshown]

/-- The text of a value does not begin with an empty line. -/
theorem follows_written {vs : List Value} (h : ∀ v ∈ vs, v.Filled) :
    Follows 0 ('\n' :: (written vs).toList) := by
  refine ⟨_, rfl, ?_⟩
  cases vs with
  | nil => decide
  | cons v vs =>
    obtain ⟨c, rest, htext, hc⟩ := renderAt_head (h v List.mem_cons_self) 0
    rw [toList_written_cons, htext]
    intro hhead
    exact hc.ne (by decide) (by decide) (by decide) (Option.some.inj hhead)

theorem asShown_of_written_eq {vs ws : List Value} (hvs : ∀ v ∈ vs, v.Filled)
    (hws : ∀ w ∈ ws, w.Filled) (h : (written vs).toList = (written ws).toList) :
    vs.map asShown = ws.map asShown := by
  have hnil (v : Value) (us : List Value) : (written []).toList ≠ (written (v :: us)).toList := by
    intro heq
    rw [toList_written_cons] at heq
    exact List.append_ne_nil_of_right_ne_nil _ (List.cons_ne_nil _ _) heq.symm
  induction vs generalizing ws with
  | nil =>
    cases ws with
    | nil => rfl
    | cons w ws => exact absurd h (hnil w ws)
  | cons v vs ih =>
    cases ws with
    | nil => exact absurd h.symm (hnil v vs)
    | cons w ws =>
      obtain ⟨hv, hvs⟩ := List.forall_mem_cons.1 hvs
      obtain ⟨hw, hws⟩ := List.forall_mem_cons.1 hws
      rw [toList_written_cons, toList_written_cons] at h
      obtain ⟨hhead, hrest⟩ :=
        readable v hv hw (follows_written hvs) (follows_written hws) h
      rw [List.map_cons, List.map_cons, hhead, ih hvs hws (List.cons.inj hrest).2]

/-- Two sequences of values are written alike exactly when they have the same
length and agree place by place, up to the kind of arrays without elements. -/
theorem written_values_read_back {vs ws : List Value} (hvs : ∀ v ∈ vs, v.Filled)
    (hws : ∀ w ∈ ws, w.Filled) :
    written vs = written ws ↔ vs.map asShown = ws.map asShown := by
  refine ⟨fun h => ?_, written_congr⟩
  exact asShown_of_written_eq hvs hws (congrArg String.toList h)

/-- Empty vectors of both kinds look alike, in boxes and outside of them; an
empty vector does not look like two zeros. -/
theorem written_values_read_back_empty :
    written [vector [], enclose (boxed [0] [])] = written [boxed [0] [], enclose (vector [])] ∧
      written [vector []] ≠ written [scalar 0, scalar 0] := by
  refine ⟨?_, ?_⟩
  · exact (written_values_read_back (by decide) (by decide)).2 rfl
  · intro h
    have hshown := (written_values_read_back (by decide) (by decide)).1 h
    cases hshown

end Transcript

end ArrayLang
