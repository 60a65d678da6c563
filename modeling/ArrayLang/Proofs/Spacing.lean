import ArrayLang.Proofs.ErrorPlaces

set_option autoImplicit false

/-!
# Blanks do not matter

A line is read as the same line without its blanks, but for the offsets: those of open
groups on the stack and that of the error.  An offset of the line becomes the number of
bytes before it that are not blank.  Two lines that differ in their blanks only are
therefore read alike, and an error points at the same character in both.
-/

namespace ArrayLang

/-! ## Moving offsets -/

namespace Text

/-- The bytes of a text before an offset, those of blanks not counted. -/
def nonBlankBytesBefore : List Char → Nat → Nat
  | [], _ => 0
  | c :: rest, offset =>
    if offset = 0 then 0
    else byteLength (withoutBlanks [c]) + nonBlankBytesBefore rest (offset - c.utf8Size)

theorem nonBlankBytesBefore_append (before after : List Char) :
    nonBlankBytesBefore (before ++ after) (byteLength before) =
      byteLength (withoutBlanks before) := by
  induction before with
  | nil => cases after <;> rfl
  | cons c rest ih =>
    have hpos : c.utf8Size + byteLength rest ≠ 0 := by
      have hsize := c.utf8Size_pos
      omega
    have hsplit : withoutBlanks (c :: rest) = withoutBlanks [c] ++ withoutBlanks rest :=
      withoutBlanks_append [c] rest
    rw [List.cons_append, nonBlankBytesBefore, byteLength_cons, if_neg hpos,
      Nat.add_sub_cancel_left, ih, hsplit, byteLength_append]

theorem CutAt.nonBlankBytesBefore {line : String} {offset : Nat} {before after : List Char}
    (h : CutAt line offset before after) :
    Text.nonBlankBytesBefore line.toList offset = byteLength (withoutBlanks before) := by
  rw [h.1, ← h.2, nonBlankBytesBefore_append]

/-- Two beginnings of one text that have the same number of bytes are the same. -/
theorem eq_of_append_eq_of_byteLength_eq {s s' t t' : List Char} (h : s ++ t = s' ++ t')
    (hbytes : byteLength s = byteLength s') : s = s' := by
  induction s generalizing s' with
  | nil =>
    cases s' with
    | nil => rfl
    | cons c rest =>
      have hpos := c.utf8Size_pos
      rw [byteLength_nil, byteLength_cons] at hbytes
      omega
  | cons c rest ih =>
    cases s' with
    | nil =>
      have hpos := c.utf8Size_pos
      rw [byteLength_nil, byteLength_cons] at hbytes
      omega
    | cons d rest' =>
      obtain ⟨rfl, htail⟩ := List.cons.inj h
      rw [ih htail (by simpa using hbytes)]

end Text

namespace ParseError

/-- The same error at another offset. -/
def movedTo (offset : Nat) : ParseError → ParseError
  | unexpectedEnd _ => unexpectedEnd offset
  | unexpectedChar found _ => unexpectedChar found offset
  | unknownVerb found _ => unknownVerb found offset
  | unclosedGroup _ => unclosedGroup offset
  | invalidTarget _ => invalidTarget offset
  | tooDeep limit _ => tooDeep limit offset

/-- The error with its offset mapped. -/
def relocate (f : Nat → Nat) (cause : ParseError) : ParseError := cause.movedTo (f cause.offset)

@[simp] theorem offset_movedTo (offset : Nat) (cause : ParseError) :
    (cause.movedTo offset).offset = offset := by
  cases cause <;> rfl

@[simp] theorem movedTo_movedTo (offset other : Nat) (cause : ParseError) :
    (cause.movedTo offset).movedTo other = cause.movedTo other := by
  cases cause <;> rfl

@[simp] theorem movedTo_offset (cause : ParseError) : cause.movedTo cause.offset = cause := by
  cases cause <;> rfl

end ParseError

namespace Frame

/-- The frame with the offset of its parenthesis mapped. -/
def relocate (f : Nat → Nat) : Frame → Frame
  | group place => group (f place)
  | monad verb => monad verb
  | dyad verb left => dyad verb left
  | assign name => assign name

theorem closeGroup?_relocate (f : Nat → Nat) (stack : List Frame) (e : Expr) :
    closeGroup? (stack.map (relocate f)) e =
      (closeGroup? stack e).map fun (outer, closed) => (outer.map (relocate f), closed) := by
  induction stack generalizing e with
  | nil => rfl
  | cons frame rest ih =>
    cases frame with
    | group place => rfl
    | monad | dyad | assign => exact ih _

theorem complete_relocate (f : Nat → Nat) (stack : List Frame) (e : Expr) :
    complete (stack.map (relocate f)) e =
      (complete stack e).mapError (ParseError.relocate f) := by
  induction stack generalizing e with
  | nil => rfl
  | cons frame rest ih =>
    cases frame with
    | group place => rfl
    | monad | dyad | assign => exact ih _

end Frame

namespace Reading

/-- The reading with the offsets of its groups mapped. -/
def relocate (f : Nat → Nat) : Reading → Reading
  | operand stack => operand (stack.map (Frame.relocate f))
  | operator stack left => operator (stack.map (Frame.relocate f)) left

/-- What reading on gives, with all its offsets mapped. -/
def relocateResult (f : Nat → Nat) : Except ParseError Reading → Except ParseError Reading
  | .ok next => .ok (next.relocate f)
  | .error cause => .error (cause.relocate f)

theorem push_relocate {f : Nat → Nat} {c : Char} {offset : Nat}
    (hend : f (offset + c.utf8Size) = f offset + c.utf8Size) (limit : Nat) (stack : List Frame)
    (frame : Frame) :
    push limit (stack.map (Frame.relocate f)) (frame.relocate f) c (f offset) =
      relocateResult f (push limit stack frame c offset) := by
  unfold push
  rw [List.length_map]
  split
  · rfl
  · rw [← hend]
    rfl

/-- A character does the same to a reading whose offsets are mapped, if the mapping
keeps the size of the character. -/
theorem step_relocate {f : Nat → Nat} {c : Char} {offset : Nat}
    (hend : f (offset + c.utf8Size) = f offset + c.utf8Size) (limit : Nat) (reading : Reading) :
    step limit (reading.relocate f) c (f offset) =
      relocateResult f (step limit reading c offset) := by
  cases reading with
  | operand stack =>
    simp only [relocate, step]
    split
    · rename_i verb _
      exact push_relocate hend limit stack (.monad verb)
    · rfl
    · rfl
    · exact push_relocate hend limit stack (.group offset)
    all_goals rfl
  | operator stack left =>
    simp only [relocate, step]
    split
    · rename_i verb _
      exact push_relocate hend limit stack (.dyad verb left)
    · rw [Frame.closeGroup?_relocate]
      cases Frame.closeGroup? stack left with
      | none => rfl
      | some closed => rfl
    · split
      · rename_i name
        exact push_relocate hend limit stack (.assign name)
      · rfl
    all_goals rfl

/-- The rest of a line is read as it is without its blanks, from where the blanks before
it are left out too. -/
theorem advance_withoutBlanks (limit : Nat) (reading : Reading) {line before chars : List Char}
    (hline : line = before ++ chars) :
    advance limit (reading.relocate (Text.nonBlankBytesBefore line))
        (Text.byteLength (Text.withoutBlanks before)) (Text.withoutBlanks chars) =
      relocateResult (Text.nonBlankBytesBefore line)
        (advance limit reading (Text.byteLength before) chars) := by
  induction chars generalizing reading before with
  | nil => rfl
  | cons c rest ih =>
    have hnext : line = (before ++ [c]) ++ rest := by simp [hline]
    have hrest (next : Reading) := ih next hnext
    have hbytes : Text.byteLength (before ++ [c]) = Text.byteLength before + c.utf8Size := by simp
    rw [hbytes] at hrest
    cases hblank : Text.isBlank c with
    | true =>
      have hskip : Text.withoutBlanks (c :: rest) = Text.withoutBlanks rest := by
        simp [Text.withoutBlanks, hblank]
      have hbefore : Text.withoutBlanks (before ++ [c]) = Text.withoutBlanks before := by
        simp [Text.withoutBlanks, hblank]
      rw [hskip, advance, if_pos hblank, ← hrest, hbefore]
    | false =>
      have hkeep : Text.withoutBlanks (c :: rest) = c :: Text.withoutBlanks rest := by
        simp [Text.withoutBlanks, hblank]
      have hnonBlank : Text.byteLength (Text.withoutBlanks (before ++ [c])) =
          Text.byteLength (Text.withoutBlanks before) + c.utf8Size := by
        simp [Text.withoutBlanks, hblank]
      have hstart := Text.nonBlankBytesBefore_append before (c :: rest)
      have hend := Text.nonBlankBytesBefore_append (before ++ [c]) rest
      rw [← hline] at hstart
      rw [← hnext, hbytes, hnonBlank, ← hstart] at hend
      rw [hnonBlank] at hrest
      rw [hkeep, advance, advance, hblank, ← hstart, step_relocate hend]
      cases hstep : step limit reading c (Text.byteLength before) with
      | ok next =>
        simp only [relocateResult, Bool.false_eq_true, if_false]
        rw [hstart]
        exact hrest next
      | error cause => rfl

theorem finish_relocate (f : Nat → Nat) (reading : Reading) (offset : Nat) :
    (reading.relocate f).finish (f offset) =
      (reading.finish offset).mapError (ParseError.relocate f) := by
  cases reading with
  | operand stack => rfl
  | operator stack left => exact Frame.complete_relocate f stack left

end Reading

/-! ## Lines and their spacing -/

/-- A line without its blanks is read as the line is, and an error of the one is that of
the other with its offset moved. -/
theorem parse_withoutBlanks (limit : Nat) (line : String) :
    parse limit (String.ofList (Text.withoutBlanks line.toList)) =
      (parse limit line).mapError
        (ParseError.relocate (Text.nonBlankBytesBefore line.toList)) := by
  have hadvance : Reading.advance limit .start 0 (Text.withoutBlanks line.toList) =
      Reading.relocateResult (Text.nonBlankBytesBefore line.toList)
        (Reading.advance limit .start 0 line.toList) :=
    Reading.advance_withoutBlanks limit .start (List.nil_append line.toList).symm
  have hend : Text.nonBlankBytesBefore line.toList line.utf8ByteSize =
      (String.ofList (Text.withoutBlanks line.toList)).utf8ByteSize := by
    rw [Text.utf8ByteSize_ofList, Text.utf8ByteSize_eq, ← Text.nonBlankBytesBefore_append _ [],
      List.append_nil]
  unfold parse
  rw [String.toList_ofList, hadvance]
  cases Reading.advance limit .start 0 line.toList with
  | ok reading =>
    simp only [Reading.relocateResult]
    rw [← hend, Reading.finish_relocate]
  | error cause => rfl

/-- Errors of two lines that are the same but for blanks differ in their offsets only, and
these have equally many non-blank characters before them. -/
theorem parse_errors_alike {limit : Nat} {line₁ line₂ : String} {cause₁ cause₂ : ParseError}
    (h : Text.withoutBlanks line₁.toList = Text.withoutBlanks line₂.toList)
    (hparse₁ : parse limit line₁ = .error cause₁) (hparse₂ : parse limit line₂ = .error cause₂) :
    cause₂ = cause₁.movedTo cause₂.offset ∧
    ∃ before₁ after₁ before₂ after₂,
      Text.CutAt line₁ cause₁.offset before₁ after₁ ∧
      Text.CutAt line₂ cause₂.offset before₂ after₂ ∧
      (Text.withoutBlanks before₁).length = (Text.withoutBlanks before₂).length := by
  have hsame := parse_withoutBlanks limit line₁
  rw [h, parse_withoutBlanks limit line₂, hparse₁, hparse₂] at hsame
  have hmoved : cause₂.relocate (Text.nonBlankBytesBefore line₂.toList) =
      cause₁.relocate (Text.nonBlankBytesBefore line₁.toList) := Except.error.inj hsame
  refine ⟨?_, ?_⟩
  · have hcause := congrArg (ParseError.movedTo cause₂.offset) hmoved
    simpa [ParseError.relocate] using hcause
  · obtain ⟨before₁, after₁, hcut₁⟩ := (pointsInto_of_parse_error hparse₁).exists_cut
    obtain ⟨before₂, after₂, hcut₂⟩ := (pointsInto_of_parse_error hparse₂).exists_cut
    refine ⟨before₁, after₁, before₂, after₂, hcut₁, hcut₂, ?_⟩
    have hoffset := congrArg ParseError.offset hmoved
    simp only [ParseError.relocate, ParseError.offset_movedTo] at hoffset
    rw [hcut₁.nonBlankBytesBefore, hcut₂.nonBlankBytesBefore] at hoffset
    rw [hcut₁.1, hcut₂.1, Text.withoutBlanks_append, Text.withoutBlanks_append] at h
    rw [Text.eq_of_append_eq_of_byteLength_eq h hoffset.symm]

/-- Two lines that are the same but for blanks give the same tree, or fail alike: for the
same cause, with the same character or limit in it, and with equally many non-blank
characters before the offset that it names. -/
theorem blanks_matter_to_offsets_only (limit : Nat) {line₁ line₂ : String}
    (h : Text.withoutBlanks line₁.toList = Text.withoutBlanks line₂.toList) :
    (∃ e, parse limit line₁ = .ok e ∧ parse limit line₂ = .ok e) ∨
    ∃ cause₁ cause₂, parse limit line₁ = .error cause₁ ∧ parse limit line₂ = .error cause₂ ∧
      cause₂ = cause₁.movedTo cause₂.offset ∧
      ∃ before₁ after₁ before₂ after₂,
        Text.CutAt line₁ cause₁.offset before₁ after₁ ∧
        Text.CutAt line₂ cause₂.offset before₂ after₂ ∧
        (Text.withoutBlanks before₁).length = (Text.withoutBlanks before₂).length := by
  have hsame := parse_withoutBlanks limit line₁
  rw [h, parse_withoutBlanks limit line₂] at hsame
  cases hparse₁ : parse limit line₁ with
  | ok e =>
    cases hparse₂ : parse limit line₂ with
    | ok e' =>
      rw [hparse₁, hparse₂] at hsame
      exact Or.inl ⟨e, rfl, hsame⟩
    | error cause₂ =>
      rw [hparse₁, hparse₂] at hsame
      cases hsame
  | error cause₁ =>
    cases hparse₂ : parse limit line₂ with
    | ok e =>
      rw [hparse₁, hparse₂] at hsame
      cases hsame
    | error cause₂ =>
      exact Or.inr ⟨cause₁, cause₂, rfl, rfl, parse_errors_alike h hparse₁ hparse₂⟩

/-- A character that is no verb, after blanks of one byte and of three. -/
theorem blanks_matter_to_offset_of_unknown_verb :
    Text.withoutBlanks "x =\u2003(y -2)".toList = Text.withoutBlanks "x=(y-2)".toList ∧
    parse 3 "x =\u2003(y -2)" = .error (.unknownVerb '-' 9) ∧
    ∃ cause, parse 3 "x=(y-2)" = .error cause ∧
      cause = (ParseError.unknownVerb '-' 9).movedTo cause.offset := by
  have hblanks : Text.withoutBlanks "x =\u2003(y -2)".toList =
      Text.withoutBlanks "x=(y-2)".toList := by decide
  have hparse : parse 3 "x =\u2003(y -2)" = .error (.unknownVerb '-' 9) := by rfl
  refine ⟨hblanks, hparse, ?_⟩
  rcases blanks_matter_to_offsets_only 3 hblanks with ⟨e, he, -⟩ |
    ⟨cause₁, cause₂, h₁, h₂, hmoved, -⟩
  · rw [hparse] at he
    cases he
  · rw [hparse] at h₁
    cases h₁
    exact ⟨cause₂, h₂, hmoved⟩

end ArrayLang
