import ArrayLang.Proofs.ReadingPrefix

set_option autoImplicit false

/-!
# Parentheses in the text and groups on the stack

The parentheses of a text are counted without a reader: how many stand open after it,
or that one closes which nothing opened.  As long as the reader goes on, the groups on
its stack are the parentheses that stand open in what it has read, each at the offset
that its frame holds.
-/

namespace ArrayLang

/-! ## Counting parentheses -/

namespace Text

/-- The parentheses that are open after one more character; none where it closes one that
is not open. -/
def parenthesis? (opened : Nat) (c : Char) : Option Nat :=
  if c = '(' then some (opened + 1)
  else if c = ')' then
    match opened with
    | 0 => none
    | before + 1 => some before
  else some opened

/-- The parentheses that are open after a text. -/
def openAfter? (opened : Nat) (text : List Char) : Option Nat := text.foldlM parenthesis? opened

/-- Every parenthesis of the text is closed in it, and every one that closes is opened. -/
def Balanced (text : List Char) : Prop := openAfter? 0 text = some 0

instance (text : List Char) : Decidable (Balanced text) :=
  inferInstanceAs (Decidable (openAfter? 0 text = some 0))

/-- A parenthesis that opens directly before the text is closed in it. -/
def ClosedIn (after : List Char) : Prop :=
  ∃ inner outer, after = inner ++ ')' :: outer ∧ Balanced inner

@[simp] theorem parenthesis?_opening (opened : Nat) :
    parenthesis? opened '(' = some (opened + 1) := rfl

@[simp] theorem parenthesis?_closing_zero : parenthesis? 0 ')' = none := rfl

@[simp] theorem parenthesis?_closing_succ (opened : Nat) :
    parenthesis? (opened + 1) ')' = some opened := rfl

theorem parenthesis?_other {c : Char} (hopening : c ≠ '(') (hclosing : c ≠ ')') (opened : Nat) :
    parenthesis? opened c = some opened := by
  simp [parenthesis?, hopening, hclosing]

@[simp] theorem openAfter?_nil (opened : Nat) : openAfter? opened [] = some opened := rfl

@[simp] theorem openAfter?_cons (opened : Nat) (c : Char) (rest : List Char) :
    openAfter? opened (c :: rest) = (parenthesis? opened c).bind fun n => openAfter? n rest := rfl

@[simp] theorem openAfter?_append (opened : Nat) (s t : List Char) :
    openAfter? opened (s ++ t) = (openAfter? opened s).bind fun n => openAfter? n t :=
  List.foldlM_append

/-- Where fewer parentheses are open after a text than before it, one that was open is
closed in the text, and all that the text opened before are closed by then. -/
theorem exists_closing {outside inside last : Nat} {text : List Char}
    (h : openAfter? (outside + 1 + inside) text = some last) (hlast : last ≤ outside) :
    ∃ inner outer, text = inner ++ ')' :: outer ∧ openAfter? inside inner = some 0 := by
  induction text generalizing inside with
  | nil =>
    cases h
    omega
  | cons c rest ih =>
    by_cases hopening : c = '('
    · subst hopening
      have hrest : openAfter? (outside + 1 + (inside + 1)) rest = some last := h
      obtain ⟨inner, outer, rfl, hinner⟩ := ih hrest
      exact ⟨'(' :: inner, outer, rfl, hinner⟩
    by_cases hclosing : c = ')'
    · subst hclosing
      cases inside with
      | zero => exact ⟨[], rest, rfl, rfl⟩
      | succ inside =>
        have hrest : openAfter? (outside + 1 + inside) rest = some last := h
        obtain ⟨inner, outer, rfl, hinner⟩ := ih hrest
        exact ⟨')' :: inner, outer, rfl, hinner⟩
    · rw [openAfter?_cons, parenthesis?_other hopening hclosing] at h
      obtain ⟨inner, outer, rfl, hinner⟩ := ih h
      refine ⟨c :: inner, outer, rfl, ?_⟩
      rw [openAfter?_cons, parenthesis?_other hopening hclosing]
      exact hinner

/-- A parenthesis before a balanced text is not closed in it. -/
theorem Balanced.not_closedIn {after : List Char} (h : Balanced after) : ¬ ClosedIn after := by
  rintro ⟨inner, outer, rfl, hinner⟩
  rw [Balanced, openAfter?_append, hinner] at h
  cases h

/-- A parenthesis that opens in a balanced text is closed in what follows. -/
theorem Balanced.closedIn {before after : List Char} (h : Balanced (before ++ '(' :: after)) :
    ClosedIn after := by
  rw [Balanced, openAfter?_append, Option.bind_eq_some_iff] at h
  obtain ⟨opened, -, hopened⟩ := h
  have hafter : openAfter? (opened + 1 + 0) after = some 0 := hopened
  exact exists_closing hafter (Nat.zero_le opened)

end Text

/-! ## Groups on the stack -/

namespace Frame

theorem openGroups_append (s t : List Frame) :
    openGroups (s ++ t) = openGroups s + openGroups t := by
  induction s with
  | nil => simp [openGroups]
  | cons frame rest ih =>
    cases frame with
    | group place =>
      simp only [List.cons_append, openGroups, ih]
      omega
    | monad | dyad | assign => simpa only [List.cons_append, openGroups] using ih

/-- The groups of a stack stand in the text `done`: there are as many as it leaves open,
and each opens where its frame says, with the groups above it opened after it. -/
structure OpenedIn (done : List Char) (stack : List Frame) : Prop where
  count : Text.openAfter? 0 done = some (openGroups stack)
  places : ∀ inner place outer, stack = inner ++ group place :: outer →
    ∃ before after, done = before ++ '(' :: after ∧ Text.byteLength before = place ∧
      Text.openAfter? 0 after = some (openGroups inner)

theorem openedIn_nil : OpenedIn [] [] := by
  refine ⟨rfl, ?_⟩
  intro inner place outer h
  simp at h

/-- A character that is no parenthesis leaves the groups as they are. -/
theorem OpenedIn.append_other {done : List Char} {stack : List Frame} (h : OpenedIn done stack)
    {c : Char} (hopening : c ≠ '(') (hclosing : c ≠ ')') : OpenedIn (done ++ [c]) stack := by
  have hc (opened : Nat) := Text.parenthesis?_other hopening hclosing opened
  refine ⟨by simp [h.count, hc], ?_⟩
  intro inner place outer hstack
  obtain ⟨before, after, rfl, hplace, hafter⟩ := h.places inner place outer hstack
  exact ⟨before, after ++ [c], by simp, hplace, by simp [hafter, hc]⟩

/-- A `(` adds its own group. -/
theorem OpenedIn.append_opening {done : List Char} {stack : List Frame}
    (h : OpenedIn done stack) :
    OpenedIn (done ++ ['(']) (group (Text.byteLength done) :: stack) := by
  refine ⟨by simp [h.count, openGroups], ?_⟩
  intro inner place outer hstack
  rcases List.cons_eq_append_iff.1 hstack with ⟨rfl, hgroup⟩ | ⟨above, rfl, habove⟩
  · cases hgroup
    exact ⟨done, [], rfl, rfl, rfl⟩
  · obtain ⟨before, after, rfl, hplace, hafter⟩ := h.places above place outer habove
    exact ⟨before, after ++ ['('], by simp, hplace, by simp [hafter, openGroups]⟩

/-- A `)` takes the innermost group away. -/
theorem OpenedIn.append_closing {done : List Char} {inner outer : List Frame} {place : Nat}
    (h : OpenedIn done (inner ++ group place :: outer)) (hinner : openGroups inner = 0) :
    OpenedIn (done ++ [')']) outer := by
  have hopen (rest : List Frame) :
      openGroups (inner ++ group place :: rest) = openGroups rest + 1 := by
    rw [openGroups_append, hinner, openGroups, Nat.zero_add]
  refine ⟨by simp [h.count, hopen], ?_⟩
  intro between place' rest houter
  obtain ⟨before, after, rfl, hplace, hafter⟩ :=
    h.places (inner ++ group place :: between) place' rest (by simp [houter])
  exact ⟨before, after ++ [')'], by simp, hplace, by simp [hafter, hopen]⟩

/-- A frame that is no group changes nothing. -/
theorem OpenedIn.cons_of_ne_group {done : List Char} {stack : List Frame} {frame : Frame}
    (h : OpenedIn done stack) (hframe : ∀ place, frame ≠ group place) :
    OpenedIn done (frame :: stack) := by
  have hopen (rest : List Frame) : openGroups (frame :: rest) = openGroups rest := by
    cases frame with
    | group place => exact absurd rfl (hframe place)
    | monad | dyad | assign => rfl
  refine ⟨by rw [h.count, hopen], ?_⟩
  intro inner place outer hstack
  rcases List.cons_eq_append_iff.1 hstack with ⟨-, hgroup⟩ | ⟨above, rfl, habove⟩
  · exact absurd (List.cons.inj hgroup).1.symm (hframe place)
  · rw [hopen]
    exact h.places above place outer habove

end Frame

namespace Reading

/-- A step keeps the groups of the stack in step with the text. -/
theorem step_openedIn {limit : Nat} {done : List Char} {reading next : Reading} {c : Char}
    (hdone : Frame.OpenedIn done reading.stack)
    (h : step limit reading c (Text.byteLength done) = .ok next) :
    Frame.OpenedIn (done ++ [c]) next.stack := by
  rcases step_ok_cases h with ⟨frame, rfl, -, -, hframe⟩ | ⟨e, rfl, -, hopening, hclosing⟩ |
    ⟨left, outer, closed, rfl, rfl, hclose⟩
  · cases frame with
    | group place =>
      obtain ⟨rfl, rfl⟩ := hframe
      exact hdone.append_opening
    | monad | dyad | assign =>
      exact (hdone.append_other hframe.1 hframe.2).cons_of_ne_group (by simp)
  · exact hdone.append_other hopening hclosing
  · obtain ⟨inner, place, hstack, hinner⟩ := Frame.closeGroup?_innermost hclose
    rw [hstack] at hdone
    exact hdone.append_closing hinner

/-- Wherever the reader comes, its groups are the parentheses that stand open. -/
theorem Reaches.openedIn {limit : Nat} {done : List Char} {reading : Reading} {offset : Nat}
    (h : Reaches limit done reading offset) : Frame.OpenedIn done reading.stack := by
  induction h with
  | start => exact Frame.openedIn_nil
  | @blank done reading offset c _ hblank ih =>
    have hopening : c ≠ '(' := by
      rintro rfl
      exact absurd hblank (by decide)
    have hclosing : c ≠ ')' := by
      rintro rfl
      exact absurd hblank (by decide)
    exact ih.append_other hopening hclosing
  | read hreach _ hstep ih =>
    rw [hreach.offset_eq] at hstep
    exact step_openedIn ih hstep

end Reading

end ArrayLang
