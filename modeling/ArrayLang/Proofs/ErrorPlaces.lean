import ArrayLang.Proofs.Parentheses
import ArrayLang.Proofs.ReadingSound

set_option autoImplicit false

/-!
# Where errors point

An error names a byte offset of its line.  The offset lies between two characters, and
what stands there is what the error is about: the character refused, the `=` without a
variable, the last parenthesis that nothing closes, the end of the line, or the
character that opened one level too many.
-/

namespace ArrayLang

/-- Cut at a byte offset, the line has the characters `before` on the left and `after`
on the right. -/
def Text.CutAt (line : String) (offset : Nat) (before after : List Char) : Prop :=
  line.toList = before ++ after ∧ byteLength before = offset

/-- A cut between characters is a position of the string. -/
theorem Text.CutAt.isValid {line : String} {offset : Nat} {before after : List Char}
    (h : CutAt line offset before after) : String.Pos.Raw.IsValid line ⟨offset⟩ := by
  obtain ⟨hline, hoffset⟩ := h
  rw [String.Pos.Raw.isValid_iff_exists_append]
  refine ⟨String.ofList before, String.ofList after, ?_, ?_⟩
  · rw [← String.ofList_append, ← hline, String.ofList_toList]
  · rw [← hoffset, ← utf8ByteSize_ofList]
    rfl

/-- What stands in the line at the offset of an error. -/
def ParseError.PointsInto (line : String) : ParseError → Prop
  | unexpectedEnd offset => offset = line.utf8ByteSize
  | unexpectedChar found offset =>
    (∃ before after, Text.CutAt line offset before (found :: after)) ∧
      Text.isBlank found = false
  | unknownVerb found offset =>
    (∃ before after, Text.CutAt line offset before (found :: after)) ∧
      Text.isBlank found = false ∧ Verb.ofChar? found = none ∧ found.isDigit = false ∧
      Slot.isName found = false ∧ found ≠ '(' ∧ found ≠ ')' ∧ found ≠ '='
  | unclosedGroup offset =>
    ∃ before after, Text.CutAt line offset before ('(' :: after) ∧ Text.Balanced after ∧
      -- this one is not closed, and all that open after it are
      ¬ Text.ClosedIn after ∧
      ∀ inner rest, after = inner ++ '(' :: rest → Text.ClosedIn rest
  | invalidTarget offset =>
    ∃ before after last, Text.CutAt line offset before ('=' :: after) ∧
      (Text.withoutBlanks before).getLast? = some last ∧ (last.isDigit = true ∨ last = ')')
  | tooDeep _ offset =>
    0 < offset ∧ ∃ before c after, Text.CutAt line offset (before ++ [c]) after ∧
      Text.opensLevel c = true

/-- The offset of an error lies between two characters of the line. -/
theorem ParseError.PointsInto.exists_cut {line : String} {cause : ParseError}
    (h : cause.PointsInto line) : ∃ before after, Text.CutAt line cause.offset before after := by
  cases cause with
  | unexpectedEnd offset =>
    have hoffset : offset = line.utf8ByteSize := h
    exact ⟨line.toList, [], by simp, by rw [hoffset, Text.utf8ByteSize_eq]; rfl⟩
  | unexpectedChar found offset =>
    obtain ⟨⟨before, after, hcut⟩, -⟩ := h
    exact ⟨before, found :: after, hcut⟩
  | unknownVerb found offset =>
    obtain ⟨⟨before, after, hcut⟩, -⟩ := h
    exact ⟨before, found :: after, hcut⟩
  | unclosedGroup offset =>
    obtain ⟨before, after, hcut, -⟩ := h
    exact ⟨before, _, hcut⟩
  | invalidTarget offset =>
    obtain ⟨before, after, last, hcut, -⟩ := h
    exact ⟨before, _, hcut⟩
  | tooDeep limit offset =>
    obtain ⟨-, before, c, after, hcut, -⟩ := h
    exact ⟨before ++ [c], after, hcut⟩

/-- An operand that is no variable ends in a digit or in `)`. -/
theorem Expr.IsOperand.getLast?_text {e : Expr} (hoperand : e.IsOperand)
    (hcanonical : e.Canonical) (hvar : ∀ name, e ≠ .var name) :
    ∃ last, e.text.toList.getLast? = some last ∧ (last.isDigit = true ∨ last = ')') := by
  cases e with
  | noun value =>
    refine ⟨value.toNat.digitChar, by rw [toList_text_noun hcanonical]; rfl, Or.inl ?_⟩
    rw [Nat.isDigit_digitChar]
    exact decide_eq_true (Nat.lt_succ_of_le (UInt8.le_iff_toNat_le.1 hcanonical))
  | var name => exact absurd rfl (hvar name)
  | group inner => exact ⟨')', by rw [toList_text_group, List.getLast?_concat], Or.inr rfl⟩
  | monad | dyad | assign => exact absurd hoperand id

namespace Reading

/-- A character that is refused is pointed at by the error. -/
theorem Reaches.step_error_pointsInto {limit : Nat} {line : String} {before after : List Char}
    {reading : Reading} {offset : Nat} {c : Char} {cause : ParseError}
    (hreach : Reaches limit before reading offset) (hline : line.toList = before ++ c :: after)
    (hblank : Text.isBlank c = false) (h : step limit reading c offset = .error cause) :
    cause.PointsInto line := by
  have hcut : Text.CutAt line offset before (c :: after) := ⟨hline, hreach.offset_eq.symm⟩
  rcases step_error_cases h with rfl | ⟨rfl, htoken⟩ | ⟨rfl, htoken, stack, left, rfl, hvar⟩ |
    ⟨rfl, hlevel, -⟩
  · exact ⟨⟨before, after, hcut⟩, hblank⟩
  · obtain ⟨hverb, hdigit, hname, hparen⟩ := (Token.ofChar_eq_iff c .other).1 htoken
    have hisDigit : c.isDigit = false := by simpa [Token.digit?] using hdigit
    exact ⟨⟨before, after, hcut⟩, hblank, hverb, hisDigit, hname, hparen⟩
  · have hequals : c = '=' := (Token.ofChar_eq_iff c .equals).1 htoken
    obtain ⟨⟨-, hoperand, hleft⟩, htext⟩ := advance_start_sound (reaches_iff.1 hreach).1
    obtain ⟨last, hlast, hkind⟩ := hoperand.getLast?_text hleft.canonical hvar
    subst hequals
    refine ⟨before, after, last, hcut, ?_, hkind⟩
    have hbefore : Text.withoutBlanks before = Frame.stackText stack ++ left.text.toList :=
      htext.symm
    rw [hbefore, List.getLast?_append, hlast]
    rfl
  · have hsize := c.utf8Size_pos
    refine ⟨by omega, before, c, after, ⟨by simp [hline], ?_⟩, hlevel⟩
    rw [Text.byteLength_append, ← hreach.offset_eq]
    simp

/-- At the end of the line, the error points there or at the last open parenthesis. -/
theorem Reaches.finish_error_pointsInto {limit : Nat} {line : String} {reading : Reading}
    {offset : Nat} {cause : ParseError} (hreach : Reaches limit line.toList reading offset)
    (h : reading.finish line.utf8ByteSize = .error cause) : cause.PointsInto line := by
  cases reading with
  | operand stack =>
    cases h
    rfl
  | operator stack left =>
    obtain ⟨inner, place, outer, hstack, hinner, rfl⟩ := Frame.complete_error h
    obtain ⟨before, after, hline, hplace, hafter⟩ := hreach.openedIn.places inner place outer hstack
    rw [hinner] at hafter
    have hbalanced : Text.Balanced after := hafter
    refine ⟨before, after, ⟨hline, hplace⟩, hbalanced, hbalanced.not_closedIn, ?_⟩
    rintro before' rest rfl
    exact hbalanced.closedIn

end Reading

theorem pointsInto_of_parse_error {limit : Nat} {line : String} {cause : ParseError}
    (h : parse limit line = .error cause) : cause.PointsInto line := by
  cases hread : Reading.advance limit .start 0 line.toList with
  | ok reading =>
    rw [parse_eq_of_advance_ok hread] at h
    exact (Reading.reaches_iff.2 ⟨hread, rfl⟩).finish_error_pointsInto h
  | error failure =>
    have hcause : failure = cause := by simpa [parse, hread] using h
    subst hcause
    obtain ⟨before, c, after, mid, hline, hblank, hbefore, hstep⟩ := Reading.advance_error hread
    have hreach : Reading.Reaches limit before mid (0 + Text.byteLength before) :=
      Reading.reaches_iff.2 ⟨hbefore, Nat.zero_add _⟩
    exact hreach.step_error_pointsInto hline hblank hstep

/-- Every error points, between two characters of its line, at what it names.  Wherever
the reader comes in the line, its cursor stands between two characters, with all that was
read on its left and the rest, from which it reads on, on its right. -/
theorem parse_error_points_at_what_it_names (limit : Nat) (line : String) :
    (∀ cause, parse limit line = .error cause →
      (∃ before after, Text.CutAt line cause.offset before after) ∧ cause.PointsInto line) ∧
    ∀ (done rest : List Char) (reading : Reading) (offset : Nat), line.toList = done ++ rest →
      Reading.Reaches limit done reading offset →
        Reading.advance limit .start 0 line.toList = Reading.advance limit reading offset rest ∧
        Text.CutAt line offset done rest ∧ String.Pos.Raw.IsValid line ⟨offset⟩ := by
  refine ⟨?_, ?_⟩
  · intro cause h
    have hpoints := pointsInto_of_parse_error h
    exact ⟨hpoints.exists_cut, hpoints⟩
  · intro done rest reading offset hline hreach
    have hcut : Text.CutAt line offset done rest := ⟨hline, hreach.offset_eq.symm⟩
    exact ⟨by rw [hline, hreach.advance_append], hcut, hcut.isValid⟩

/-- A group that is left open, after a blank of three bytes and around a group that is
closed. -/
theorem parse_error_points_at_open_group :
    parse 3 "1\u2003+((2),3" = .error (.unclosedGroup 5) ∧
    (ParseError.unclosedGroup 5).PointsInto "1\u2003+((2),3" ∧
    Reading.Reaches 3 ['1', '\u2003'] (.operator [] (.noun 1)) 4 ∧
    String.Pos.Raw.IsValid "1\u2003+((2),3" ⟨4⟩ := by
  have hparse : parse 3 "1\u2003+((2),3" = .error (.unclosedGroup 5) := by rfl
  have hreach : Reading.Reaches 3 ['1', '\u2003'] (.operator [] (.noun 1)) 4 :=
    Reading.reaches_iff.2 ⟨by rfl, by rfl⟩
  have hline : "1\u2003+((2),3".toList = ['1', '\u2003'] ++ "+((2),3".toList := by rfl
  obtain ⟨herror, hcursor⟩ := parse_error_points_at_what_it_names 3 "1\u2003+((2),3"
  exact ⟨hparse, (herror _ hparse).2, hreach, (hcursor _ _ _ _ hline hreach).2.2⟩

end ArrayLang
