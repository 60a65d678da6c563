import ArrayLang.Proofs.Messages
import ArrayLang.Proofs.Transcripts
import Mathlib.Data.List.Forall2

set_option autoImplicit false

/-!
# Every line is accounted for

A text in UTF-8 is read to its end, and what is written for its lines is written line by
line: nothing for a blank one, its value for one that has a value, and one line for one
that fails, since no message has a line feed in it.  So the errors can be counted by the
lines that they take.
-/

namespace ArrayLang

/-- How many lines a text has. -/
def Text.lineCount (text : String) : Nat := (splitLines (utf8 text.toList)).length

/-- The line failed. -/
def Answer.isFailure : Answer → Bool
  | failure _ => true
  | blank | value _ => false

/-- The blank answer is that to lines of blanks, and to no others. -/
theorem Session.evalLine_eq_blank_iff (session : Session) (line : String) :
    (session.evalLine line).1 = .blank ↔ ∀ c ∈ line.toList, Text.isBlank c = true := by
  rw [← List.all_eq_true, ← Text.allBlank]
  rcases session.evalLine_cases line with ⟨hblank, hline⟩ | ⟨hblank, cause, -, hline⟩ |
    ⟨hblank, e, cause, env, -, -, hline⟩ | ⟨hblank, e, value, env, -, -, hline⟩
  all_goals simp [hblank, hline]

namespace Transcript

/-! ## What lines write -/

/-- What a session writes for lines whose texts are known. -/
def ofTexts (session : Session) (lines : List String) : Transcript where
  out := String.join ((session.evalLines lines).map fun done => outText done.1)
  err := String.join ((session.evalLines lines).map fun done => errText done.1)
  session := session.after lines
  complete := true

/-- The first line is evaluated first, and the others in the session after it. -/
theorem ofTexts_cons (session : Session) (line : String) (rest : List String) :
    ofTexts session (line :: rest) =
      (ofTexts session [line]).followedBy (ofTexts (session.evalLine line).2 rest) := by
  simp [ofTexts, followedBy, Session.evalLines, Session.after]

theorem addLine_begin {line : List UInt8} {text : String}
    (h : Text.decodeLine? line = some text) (session : Session) :
    (begin session).addLine line = ofTexts session [text] := by
  simp [addLine, begin, h, ofTexts, Session.evalLines, Session.after]

theorem foldl_addLine_begin {stream : List (List UInt8)} {lines : List String}
    (h : stream.map Text.decodeLine? = lines.map some) (session : Session) :
    stream.foldl addLine (begin session) = ofTexts session lines := by
  induction stream generalizing lines session with
  | nil =>
    cases lines with
    | nil => rfl
    | cons text lines => cases h
  | cons line stream ih =>
    cases lines with
    | nil => cases h
    | cons text lines =>
      obtain ⟨hline, hrest⟩ := List.cons.inj h
      rw [List.foldl_cons, addLine_begin hline, foldl_addLine_of_complete rfl, ih hrest,
        ofTexts_cons session text lines]
      rfl

/-! ## One line at a time -/

/-- What a line with its answer adds to the values and to the errors. -/
inductive Accounted (line : String) : Answer → String → String → Prop where
  /-- a blank line adds nothing -/
  | blank (hblank : Text.allBlank line.toList = true) : Accounted line .blank "" ""
  /-- a value is written, and a line feed after it -/
  | value (hblank : Text.allBlank line.toList = false) (value : Value) :
    Accounted line (.value value) (value.render ++ "\n") ""
  /-- an error is written on one line -/
  | failure (hblank : Text.allBlank line.toList = false) (cause : LineError)
    (hfeed : '\n' ∉ cause.message.toList) :
    Accounted line (.failure cause) "" ("error: " ++ cause.message ++ "\n")

theorem accounted_evalLine (session : Session) (line : String) :
    Accounted line (session.evalLine line).1 (outText (session.evalLine line).1)
      (errText (session.evalLine line).1) := by
  have hmessage {cause : LineError} (h : (session.evalLine line).1 = .failure cause) :
      '\n' ∉ cause.message.toList :=
    (Session.blanksAreSpaces_message h).lineFeed_not_mem
  rcases session.evalLine_cases line with ⟨hblank, hline⟩ | ⟨hblank, cause, -, hline⟩ |
    ⟨hblank, e, cause, env, -, -, hline⟩ | ⟨hblank, e, value, env, -, -, hline⟩
  · rw [hline]
    exact .blank hblank
  · rw [hline] at hmessage ⊢
    exact .failure hblank (.parse cause) (hmessage rfl)
  · rw [hline] at hmessage ⊢
    exact .failure hblank (.eval cause) (hmessage rfl)
  · rw [hline]
    exact .value hblank value

theorem accounted_evalLines (session : Session) (lines : List String) :
    List.Forall₂ (fun line done => Accounted line done.1 (outText done.1) (errText done.1))
      lines (session.evalLines lines) := by
  induction lines generalizing session with
  | nil => exact .nil
  | cons line rest ih => exact .cons (accounted_evalLine session line) (ih _)

/-! ## Lines of errors -/

/-- In front of other errors, those of one answer take one line if it failed. -/
theorem Accounted.lineCount_append {line out err : String} {answer : Answer}
    (h : Accounted line answer out err) (rest : String) :
    Text.lineCount (err ++ rest) = Text.lineCount rest + if answer.isFailure then 1 else 0 := by
  cases h with
  | blank | value => simp [Answer.isFailure]
  | failure hblank cause hfeed =>
    have hwords : '\n' ∉ ("error: " ++ cause.message).toList := by
      simp [hfeed]
    have hchars : ("error: " ++ cause.message ++ "\n" ++ rest).toList =
        ("error: " ++ cause.message).toList ++ '\n' :: rest.toList := by
      simp
    rw [Text.lineCount, hchars, Text.utf8_append_feed,
      Text.splitLines_append_feed (Text.standsFor_lineFeed.not_mem_utf8 hwords)]
    rfl

theorem lineCount_err (session : Session) (lines : List String) :
    Text.lineCount (ofTexts session lines).err =
      (session.evalLines lines).countP fun done => done.1.isFailure := by
  induction lines generalizing session with
  | nil => rfl
  | cons line rest ih =>
    have hline := accounted_evalLine session line
    rw [Session.evalLines, List.countP_cons, ← ih, ← hline.lineCount_append]
    simp [ofTexts, Session.evalLines]

/-- In every session: the answer to a line is blank exactly if all of it is, and the
message of a failure has no blank but the space.  A text in UTF-8 is read to its end, and
the values and the errors are those of its lines, in order: nothing for a blank line, and
for another either its value or one line that tells why it has none.  The errors take as
many lines as lines failed. -/
theorem every_line_accounted_for (session : Session) :
    (∀ line : String,
      ((session.evalLine line).1 = .blank ↔ ∀ c ∈ line.toList, Text.isBlank c = true) ∧
      ∀ cause, (session.evalLine line).1 = .failure cause →
        ∀ c ∈ cause.message.toList, Text.isBlank c = true → c = ' ') ∧
    ∀ text : String, ∃ lines : List String,
      Text.texts (Text.utf8 text.toList) = lines.map some ∧
      ofBytes session (Text.utf8 text.toList) = ofTexts session lines ∧
      List.Forall₂ (fun line done => Accounted line done.1 (outText done.1) (errText done.1))
        lines (session.evalLines lines) ∧
      Text.lineCount (ofTexts session lines).err =
        (session.evalLines lines).countP fun done => done.1.isFailure := by
  constructor
  · intro line
    exact ⟨session.evalLine_eq_blank_iff line, fun cause h => Session.blanksAreSpaces_message h⟩
  · intro text
    obtain ⟨lines, hlines⟩ := Text.exists_texts_utf8 text.toList
    exact ⟨lines, hlines, foldl_addLine_begin hlines session, accounted_evalLines session lines,
      lineCount_err session lines⟩

/-- A line with a line feed in it: the character behind that is at fault, and is named
without a line feed. -/
theorem every_line_accounted_for_broken_line :
    ((Session.new 9).evalLine "a\nb").1 = .failure (.parse (.unexpectedChar 'b' 2)) ∧
    ∀ c ∈ (LineError.parse (.unexpectedChar 'b' 2)).message.toList,
      Text.isBlank c = true → c = ' ' := by
  have hline : ((Session.new 9).evalLine "a\nb").1 =
      .failure (.parse (.unexpectedChar 'b' 2)) := rfl
  exact ⟨hline, ((every_line_accounted_for (.new 9)).1 "a\nb").2 _ hline⟩

end Transcript

end ArrayLang
