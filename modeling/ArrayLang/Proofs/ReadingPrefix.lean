import ArrayLang.Proofs.ReadingCourse

set_option autoImplicit false

/-!
# Beginnings of lines

A reading that has not failed can be brought to an end: with a digit where an
operand is awaited, and with a `)` for every group that is still open.  Neither
puts a frame on the stack, so the limit is never in the way.  A reading that has
failed did so at one character, and nothing after that character is looked at.
So the errors of a line that stops too early are told apart from those of a line
that no continuation can mend.
-/

namespace ArrayLang

/-- The line stops before its expression is complete; what there is of it can stand. -/
def ParseError.isIncomplete : ParseError → Bool
  | unexpectedEnd _ | unclosedGroup _ => true
  | unexpectedChar _ _ | unknownVerb _ _ | invalidTarget _ | tooDeep _ _ => false

namespace Frame

/-! ## Open groups -/

/-- The number of groups that nothing has closed yet. -/
def openGroups : List Frame → Nat
  | [] => 0
  | group _ :: rest => openGroups rest + 1
  | monad _ :: rest | dyad _ _ :: rest | assign _ :: rest => openGroups rest

/-- Without an open group, the frames can all be filled. -/
theorem exists_complete {stack : List Frame} (h : openGroups stack = 0) (e : Expr) :
    ∃ whole, complete stack e = .ok whole := by
  induction stack generalizing e with
  | nil => exact ⟨e, rfl⟩
  | cons frame rest ih =>
    cases frame with
    | group offset => cases h
    | monad | dyad | assign => exact ih h _

/-- With an open group, the innermost one can be closed. -/
theorem exists_closeGroup? {stack : List Frame} {n : Nat} (h : openGroups stack = n + 1)
    (e : Expr) :
    ∃ outer closed, closeGroup? stack e = some (outer, closed) ∧ openGroups outer = n := by
  induction stack generalizing e with
  | nil => cases h
  | cons frame rest ih =>
    cases frame with
    | group offset => exact ⟨rest, .group e, rfl, Nat.succ.inj h⟩
    | monad | dyad | assign => exact ih h _

/-- What is closed is the innermost group. -/
theorem closeGroup?_innermost {stack outer : List Frame} {e closed : Expr}
    (h : closeGroup? stack e = some (outer, closed)) :
    ∃ inner place, stack = inner ++ group place :: outer ∧ openGroups inner = 0 := by
  induction stack generalizing e with
  | nil => cases h
  | cons frame rest ih =>
    cases frame with
    | group place =>
      cases h
      exact ⟨[], place, rfl, rfl⟩
    | monad | dyad | assign =>
      obtain ⟨inner, place, rfl, hinner⟩ := ih h
      exact ⟨_ :: inner, place, rfl, hinner⟩

/-- A stack that cannot be completed is reported by its innermost group. -/
theorem complete_error {stack : List Frame} {e : Expr} {cause : ParseError}
    (h : complete stack e = .error cause) :
    ∃ inner place outer, stack = inner ++ group place :: outer ∧ openGroups inner = 0 ∧
      cause = .unclosedGroup place := by
  induction stack generalizing e with
  | nil => cases h
  | cons frame rest ih =>
    cases frame with
    | group place =>
      cases h
      exact ⟨[], place, rest, rfl, rfl, rfl⟩
    | monad | dyad | assign =>
      obtain ⟨inner, place, outer, rfl, hinner, hcause⟩ := ih h
      exact ⟨_ :: inner, place, outer, rfl, hinner, hcause⟩

end Frame

namespace Reading

/-! ## Completions -/

/-- Characters that bring a reading to its end. -/
def completion : Reading → List Char
  | operand stack => '0' :: List.replicate (Frame.openGroups stack) ')'
  | operator stack _ => List.replicate (Frame.openGroups stack) ')'

/-- As many `)` as there are open groups leave a tree that is complete. -/
theorem advance_closings (limit : Nat) (stack : List Frame) (left : Expr) (offset : Nat) :
    ∃ outer closed whole,
      advance limit (operator stack left) offset
        (List.replicate (Frame.openGroups stack) ')') = .ok (operator outer closed) ∧
      Frame.complete outer closed = .ok whole := by
  -- The number of open groups goes down by one with every character.
  generalize hn : Frame.openGroups stack = n
  induction n generalizing stack left offset with
  | zero =>
    obtain ⟨whole, hwhole⟩ := Frame.exists_complete hn left
    exact ⟨stack, left, whole, rfl, hwhole⟩
  | succ n ih =>
    obtain ⟨outer, closed, hclose, hopen⟩ := Frame.exists_closeGroup? hn left
    have hblank : Text.isBlank ')' = false := by decide
    have htoken : Token.ofChar ')' = .closing := by decide
    simp only [List.replicate_succ, advance, hblank, Bool.false_eq_true, if_false, step, htoken,
      hclose]
    exact ih outer closed _ hopen

/-- Every reading is brought to a complete tree by its completion. -/
theorem advance_completion (limit : Nat) (reading : Reading) (offset : Nat) :
    ∃ outer closed whole,
      advance limit reading offset reading.completion = .ok (operator outer closed) ∧
      Frame.complete outer closed = .ok whole := by
  cases reading with
  | operator stack left => exact advance_closings limit stack left offset
  | operand stack =>
    have hblank : Text.isBlank '0' = false := by decide
    have htoken : Token.ofChar '0' = .digit 0 := by decide
    simp only [completion, advance, hblank, Bool.false_eq_true, if_false, step, htoken]
    exact advance_closings limit stack (.noun 0) _

/-! ## The character at which a reading fails -/

/-- The causes for which a character can be refused. -/
theorem step_error {limit : Nat} {reading : Reading} {c : Char} {offset : Nat}
    {cause : ParseError} (h : step limit reading c offset = .error cause) :
    cause = .unexpectedChar c offset ∨ cause = .unknownVerb c offset ∨
      cause = .invalidTarget offset ∨ cause = .tooDeep limit (offset + c.utf8Size) := by
  rcases step_error_cases h with rfl | ⟨rfl, -⟩ | ⟨rfl, -⟩ | ⟨rfl, -⟩ <;> simp

/-- A reading fails at one character that is not blank, after all that stands before it
was read. -/
theorem advance_error {limit : Nat} {reading : Reading} {offset : Nat} {chars : List Char}
    {cause : ParseError} (h : advance limit reading offset chars = .error cause) :
    ∃ before c after mid, chars = before ++ c :: after ∧ Text.isBlank c = false ∧
      advance limit reading offset before = .ok mid ∧
      step limit mid c (offset + Text.byteLength before) = .error cause := by
  induction chars generalizing reading offset with
  | nil => cases h
  | cons d rest ih =>
    rw [advance] at h
    split at h
    · rename_i hblank
      obtain ⟨before, c, after, mid, rfl, hc, hbefore, hstep⟩ := ih h
      refine ⟨d :: before, c, after, mid, rfl, hc, ?_, ?_⟩
      · rw [advance, if_pos hblank, hbefore]
      · rwa [Text.byteLength_cons, ← Nat.add_assoc]
    · rename_i hblank
      split at h
      · rename_i next hnext
        obtain ⟨before, c, after, mid, rfl, hc, hbefore, hstep⟩ := ih h
        refine ⟨d :: before, c, after, mid, rfl, hc, ?_, ?_⟩
        · rw [advance, if_neg hblank, hnext]
          exact hbefore
        · rwa [Text.byteLength_cons, ← Nat.add_assoc]
      · rename_i hfail
        cases h
        exact ⟨[], d, rest, reading, rfl, Bool.eq_false_iff.2 hblank, rfl, hfail⟩

theorem finish_error {reading : Reading} {offset : Nat} {cause : ParseError}
    (h : reading.finish offset = .error cause) : cause.isIncomplete = true := by
  cases reading with
  | operand stack =>
    cases h
    rfl
  | operator stack left =>
    obtain ⟨-, place, -, -, -, rfl⟩ := Frame.complete_error h
    rfl

end Reading

/-! ## Lines and their continuations -/

theorem parse_eq_of_advance_ok {limit : Nat} {line : String} {reading : Reading}
    (h : Reading.advance limit .start 0 line.toList = .ok reading) :
    parse limit line = reading.finish line.utf8ByteSize := by
  rw [parse, h]

/-- A line that was read without failing has a continuation that is accepted. -/
theorem exists_continuation {limit : Nat} {line : String} {reading : Reading}
    (h : Reading.advance limit .start 0 line.toList = .ok reading) :
    ∃ (t : String) (e : Expr), parse limit (line ++ t) = .ok e := by
  obtain ⟨outer, closed, whole, hread, hcomplete⟩ :=
    Reading.advance_completion limit reading (0 + Text.byteLength line.toList)
  have hadvance : Reading.advance limit .start 0
      (line ++ String.ofList reading.completion).toList = .ok (.operator outer closed) := by
    rw [String.toList_append, String.toList_ofList, Reading.advance_append, h]
    exact hread
  exact ⟨_, whole, (parse_eq_of_advance_ok hadvance).trans hcomplete⟩

/-- A line that failed while it was read fails in the same way, however it goes on. -/
theorem parse_append_of_advance_error {limit : Nat} {line : String} {cause : ParseError}
    (h : Reading.advance limit .start 0 line.toList = .error cause) (t : String) :
    parse limit (line ++ t) = .error cause := by
  rw [parse, String.toList_append, Reading.advance_append, h]

/-- An error for want of more text arises at the end of the line, after all of it was
read; any other arises while the line is read. -/
theorem parse_error_cases {limit : Nat} {line : String} {cause : ParseError}
    (h : parse limit line = .error cause) :
    (cause.isIncomplete = true ∧
      ∃ reading, Reading.advance limit .start 0 line.toList = .ok reading) ∨
    (cause.isIncomplete = false ∧
      Reading.advance limit .start 0 line.toList = .error cause) := by
  cases hadvance : Reading.advance limit .start 0 line.toList with
  | ok reading =>
    rw [parse_eq_of_advance_ok hadvance] at h
    exact Or.inl ⟨Reading.finish_error h, reading, rfl⟩
  | error failure =>
    have hcause : failure = cause := by simpa [parse, hadvance] using h
    subst hcause
    obtain ⟨before, c, after, mid, -, -, -, hstep⟩ := Reading.advance_error hadvance
    refine Or.inr ⟨?_, rfl⟩
    rcases Reading.step_error hstep with rfl | rfl | rfl | rfl <;> rfl

/-- The part of a line before the character that was refused has a continuation that is
accepted.  (The limit is passed after a character, which then belongs to that part.) -/
theorem exists_continuation_before {limit : Nat} {line : String} {cause : ParseError}
    (h : Reading.advance limit .start 0 line.toList = .error cause)
    (hdepth : ∀ bound offset, cause ≠ .tooDeep bound offset) :
    ∃ before after : String, line = before ++ after ∧ before.utf8ByteSize = cause.offset ∧
      ∃ (t : String) (e : Expr), parse limit (before ++ t) = .ok e := by
  obtain ⟨before, c, after, mid, hline, -, hbefore, hstep⟩ := Reading.advance_error h
  rw [Nat.zero_add] at hstep
  refine ⟨String.ofList before, String.ofList (c :: after), ?_, ?_, ?_⟩
  · rw [← String.ofList_append, ← hline, String.ofList_toList]
  · rw [Text.utf8ByteSize_ofList]
    rcases Reading.step_error hstep with rfl | rfl | rfl | rfl
    · rfl
    · rfl
    · rfl
    · exact absurd rfl (hdepth _ _)
  · have hread : Reading.advance limit .start 0 (String.ofList before).toList = .ok mid := by
      rwa [String.toList_ofList]
    exact exists_continuation hread

/-- A line can be continued to an accepted one exactly when it is accepted itself or
fails for want of more text.  Any other error stays the same however the line goes on,
and, unless the nesting is too deep, the part of the line before the offset that the
error names can still be continued to an accepted line. -/
theorem parse_separates_incomplete_from_wrong (limit : Nat) (line : String) :
    ((∃ (t : String) (e : Expr), parse limit (line ++ t) = .ok e) ↔
      (∃ e, parse limit line = .ok e) ∨
        ∃ cause, parse limit line = .error cause ∧ cause.isIncomplete = true) ∧
    (∀ cause, parse limit line = .error cause → cause.isIncomplete = false →
      (∀ t : String, parse limit (line ++ t) = .error cause) ∧
      ((∀ bound offset, cause ≠ .tooDeep bound offset) →
        ∃ before after : String, line = before ++ after ∧ before.utf8ByteSize = cause.offset ∧
          ∃ (t : String) (e : Expr), parse limit (before ++ t) = .ok e)) := by
  refine ⟨⟨?_, ?_⟩, ?_⟩
  · rintro ⟨t, e, he⟩
    cases hparse : parse limit line with
    | ok whole => exact Or.inl ⟨whole, rfl⟩
    | error cause =>
      rcases parse_error_cases hparse with ⟨hcause, -⟩ | ⟨-, hadvance⟩
      · exact Or.inr ⟨cause, rfl, hcause⟩
      · rw [parse_append_of_advance_error hadvance] at he
        cases he
  · rintro (⟨e, he⟩ | ⟨cause, hparse, hcause⟩)
    · exact ⟨"", e, by rwa [String.append_empty]⟩
    · rcases parse_error_cases hparse with ⟨-, reading, hreading⟩ | ⟨hwrong, -⟩
      · exact exists_continuation hreading
      · rw [hcause] at hwrong
        cases hwrong
  · intro cause hparse hcause
    rcases parse_error_cases hparse with ⟨hincomplete, -⟩ | ⟨-, hadvance⟩
    · rw [hcause] at hincomplete
      cases hincomplete
    · exact ⟨parse_append_of_advance_error hadvance, exists_continuation_before hadvance⟩

/-- An assignment to a group, found after a blank of two bytes. -/
theorem parse_separates_assigned_group :
    (∀ t : String, parse 2 ("(1,x)\u00a0=3" ++ t) = .error (.invalidTarget 7)) ∧
    ∃ before after : String, "(1,x)\u00a0=3" = before ++ after ∧ before.utf8ByteSize = 7 ∧
      ∃ (t : String) (e : Expr), parse 2 (before ++ t) = .ok e := by
  have hparse : parse 2 "(1,x)\u00a0=3" = .error (.invalidTarget 7) := by rfl
  obtain ⟨hsame, hbefore⟩ :=
    (parse_separates_incomplete_from_wrong 2 "(1,x)\u00a0=3").2 _ hparse rfl
  exact ⟨hsame, hbefore (by simp)⟩

end ArrayLang
