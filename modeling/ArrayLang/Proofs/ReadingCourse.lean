import ArrayLang.Expr.Reading
import ArrayLang.Proofs.Token

set_option autoImplicit false

/-!
# The course of a reading

What one character does to a reading is said once: it opens a level, is an operand,
closes a group (`Reading.step_ok_cases`), or is refused (`Reading.step_error_cases`).
`Reading.Reaches` follows the reader through a line: what it has read, how far it
has come, and the offset at which its cursor stands.
-/

namespace ArrayLang

/-! ## Characters that open a level -/

/-- The character opens a level of nesting: it writes a verb, or is `=` or `(`. -/
def Text.opensLevel (c : Char) : Bool := (Verb.ofChar? c).isSome || c == '=' || c == '('

theorem Text.opensLevel_iff (c : Char) :
    opensLevel c = true ↔
      (∃ verb, Token.ofChar c = .verb verb) ∨ Token.ofChar c = .equals ∨
        Token.ofChar c = .opening := by
  have hverb : (Verb.ofChar? c).isSome = true ↔ ∃ verb, Token.ofChar c = .verb verb := by
    simp only [Option.isSome_iff_exists, Verb.ofChar?_eq_some_iff, Token.ofChar_eq_iff,
      Token.WrittenBy]
  have hequals : c = '=' ↔ Token.ofChar c = .equals := (Token.ofChar_eq_iff c .equals).symm
  have hopening : c = '(' ↔ Token.ofChar c = .opening := (Token.ofChar_eq_iff c .opening).symm
  simp only [opensLevel, Bool.or_eq_true, beq_iff_eq, hverb, hequals, hopening, or_assoc]

theorem Text.opensLevel_eq_false {c : Char} (hverb : ∀ verb, Token.ofChar c ≠ .verb verb)
    (hequals : Token.ofChar c ≠ .equals) (hopening : Token.ofChar c ≠ .opening) :
    opensLevel c = false := by
  rw [Bool.eq_false_iff, ne_eq, opensLevel_iff]
  rintro (⟨verb, h⟩ | h | h)
  · exact hverb verb h
  · exact hequals h
  · exact hopening h

theorem Text.isBlank_eq_false_of_opensLevel {c : Char} (h : opensLevel c = true) :
    isBlank c = false := by
  apply Token.isBlank_eq_false_of_ofChar_ne_other
  rcases (opensLevel_iff c).1 h with ⟨verb, ht⟩ | ht | ht <;> simp [ht]

/-- A character that the reader takes for no parenthesis is none. -/
theorem Token.ne_parenthesis {c : Char} (hopening : Token.ofChar c ≠ .opening)
    (hclosing : Token.ofChar c ≠ .closing) : c ≠ '(' ∧ c ≠ ')' :=
  ⟨mt (Token.ofChar_eq_iff c .opening).2 hopening, mt (Token.ofChar_eq_iff c .closing).2 hclosing⟩

/-- The frame is what a character at `offset` puts on the stack: a group for `(`, and
another frame for a character that is no parenthesis. -/
def Frame.OpenedBy (c : Char) (offset : Nat) : Frame → Prop
  | group place => c = '(' ∧ place = offset
  | monad _ | dyad _ _ | assign _ => c ≠ '(' ∧ c ≠ ')'

namespace Reading

/-- The frames that wait, innermost first.  Their number is the depth of the reading. -/
def stack : Reading → List Frame
  | operand stack => stack
  | operator stack _ => stack

@[simp] theorem stack_operand (stack : List Frame) : (operand stack).stack = stack := rfl

@[simp] theorem stack_operator (stack : List Frame) (left : Expr) :
    (operator stack left).stack = stack := rfl

/-! ## What one character does -/

theorem push_ok {limit : Nat} {stack : List Frame} {frame : Frame} {c : Char} {offset : Nat}
    {next : Reading} (h : push limit stack frame c offset = .ok next) :
    stack.length < limit ∧ next = operand (frame :: stack) := by
  unfold push at h
  split at h
  · rename_i hlt
    cases h
    exact ⟨hlt, rfl⟩
  · cases h

theorem push_error {limit : Nat} {stack : List Frame} {frame : Frame} {c : Char} {offset : Nat}
    {cause : ParseError} (h : push limit stack frame c offset = .error cause) :
    limit ≤ stack.length ∧ cause = .tooDeep limit (offset + c.utf8Size) := by
  unfold push at h
  split at h
  · cases h
  · rename_i hle
    cases h
    exact ⟨Nat.le_of_not_lt hle, rfl⟩

/-- A character that is read opens a level, or is an operand, or closes a group. -/
theorem step_ok_cases {limit : Nat} {reading next : Reading} {c : Char} {offset : Nat}
    (h : step limit reading c offset = .ok next) :
    (∃ frame : Frame, next = operand (frame :: reading.stack) ∧ reading.stack.length < limit ∧
      Text.opensLevel c = true ∧ frame.OpenedBy c offset) ∨
    (∃ e, next = operator reading.stack e ∧ Text.opensLevel c = false ∧ c ≠ '(' ∧ c ≠ ')') ∨
    (∃ left outer closed, next = operator outer closed ∧ c = ')' ∧
      Frame.closeGroup? reading.stack left = some (outer, closed)) := by
  have hopens {frame : Frame} (hpush : push limit reading.stack frame c offset = .ok next)
      (hlevel : Text.opensLevel c = true) (hframe : frame.OpenedBy c offset) :
      ∃ frame : Frame, next = operand (frame :: reading.stack) ∧ reading.stack.length < limit ∧
        Text.opensLevel c = true ∧ frame.OpenedBy c offset := by
    obtain ⟨hlt, rfl⟩ := push_ok hpush
    exact ⟨frame, rfl, hlt, hlevel, hframe⟩
  cases ht : Token.ofChar c with
  | verb verb =>
    have hlevel : Text.opensLevel c = true := (Text.opensLevel_iff c).2 (by simp [ht])
    have hparen := Token.ne_parenthesis (c := c) (by simp [ht]) (by simp [ht])
    left
    cases reading with
    | operand stack =>
      simp only [step, ht] at h
      exact hopens h hlevel hparen
    | operator stack left =>
      simp only [step, ht] at h
      exact hopens h hlevel hparen
  | digit | letter =>
    cases reading with
    | operand stack =>
      simp only [step, ht] at h
      cases h
      have hlevel := Text.opensLevel_eq_false (c := c) (by simp [ht]) (by simp [ht]) (by simp [ht])
      have hparen := Token.ne_parenthesis (c := c) (by simp [ht]) (by simp [ht])
      exact Or.inr (Or.inl ⟨_, rfl, hlevel, hparen⟩)
    | operator stack left =>
      simp only [step, ht] at h
      cases h
  | opening =>
    cases reading with
    | operand stack =>
      simp only [step, ht] at h
      have hlevel : Text.opensLevel c = true := (Text.opensLevel_iff c).2 (by simp [ht])
      exact Or.inl (hopens h hlevel ⟨(Token.ofChar_eq_iff c .opening).1 ht, rfl⟩)
    | operator stack left =>
      simp only [step, ht] at h
      cases h
  | closing =>
    cases reading with
    | operand stack =>
      simp only [step, ht] at h
      cases h
    | operator stack left =>
      simp only [step, ht] at h
      split at h
      · rename_i outer closed hclose
        cases h
        have hclosing : c = ')' := (Token.ofChar_eq_iff c .closing).1 ht
        exact Or.inr (Or.inr ⟨left, outer, closed, rfl, hclosing, hclose⟩)
      · cases h
  | equals =>
    cases reading with
    | operand stack =>
      simp only [step, ht] at h
      cases h
    | operator stack left =>
      simp only [step, ht] at h
      split at h
      · have hlevel : Text.opensLevel c = true := (Text.opensLevel_iff c).2 (by simp [ht])
        have hparen := Token.ne_parenthesis (c := c) (by simp [ht]) (by simp [ht])
        exact Or.inl (hopens h hlevel hparen)
      · cases h
  | other =>
    cases reading with
    | operand stack =>
      simp only [step, ht] at h
      cases h
    | operator stack left =>
      simp only [step, ht] at h
      cases h

/-- What a character can be refused for. -/
theorem step_error_cases {limit : Nat} {reading : Reading} {c : Char} {offset : Nat}
    {cause : ParseError} (h : step limit reading c offset = .error cause) :
    cause = .unexpectedChar c offset ∨
    (cause = .unknownVerb c offset ∧ Token.ofChar c = .other) ∨
    (cause = .invalidTarget offset ∧ Token.ofChar c = .equals ∧
      ∃ stack left, reading = operator stack left ∧ ∀ name, left ≠ .var name) ∨
    (cause = .tooDeep limit (offset + c.utf8Size) ∧ Text.opensLevel c = true ∧
      limit ≤ reading.stack.length) := by
  have hdeep (hlevel : Text.opensLevel c = true) {frame : Frame}
      (hpush : push limit reading.stack frame c offset = .error cause) :
      cause = .tooDeep limit (offset + c.utf8Size) ∧ Text.opensLevel c = true ∧
        limit ≤ reading.stack.length :=
    ⟨(push_error hpush).2, hlevel, (push_error hpush).1⟩
  cases reading with
  | operand stack =>
    cases ht : Token.ofChar c with
    | verb | opening =>
      simp only [step, ht] at h
      exact Or.inr (Or.inr (Or.inr (hdeep ((Text.opensLevel_iff c).2 (by simp [ht])) h)))
    | digit | letter =>
      simp only [step, ht] at h
      cases h
    | closing | equals | other =>
      simp only [step, ht] at h
      cases h
      exact Or.inl rfl
  | operator stack left =>
    cases ht : Token.ofChar c with
    | verb =>
      simp only [step, ht] at h
      exact Or.inr (Or.inr (Or.inr (hdeep ((Text.opensLevel_iff c).2 (by simp [ht])) h)))
    | closing =>
      simp only [step, ht] at h
      split at h
      · cases h
      · cases h
        exact Or.inl rfl
    | equals =>
      simp only [step, ht] at h
      split at h
      · exact Or.inr (Or.inr (Or.inr (hdeep ((Text.opensLevel_iff c).2 (by simp [ht])) h)))
      · rename_i hvar
        cases h
        exact Or.inr (Or.inr (Or.inl ⟨rfl, rfl, stack, left, rfl, hvar⟩))
    | digit | letter | opening =>
      simp only [step, ht] at h
      cases h
      exact Or.inl rfl
    | other =>
      simp only [step, ht] at h
      cases h
      exact Or.inr (Or.inl ⟨rfl, rfl⟩)

/-! ## What is reached -/

/-- With the characters `done` read, the reader has come to `reading`, and its cursor
stands at `offset`. -/
inductive Reaches (limit : Nat) : List Char → Reading → Nat → Prop
  | start : Reaches limit [] .start 0
  | blank {done : List Char} {reading : Reading} {offset : Nat} {c : Char}
      (h : Reaches limit done reading offset) (hblank : Text.isBlank c = true) :
      Reaches limit (done ++ [c]) reading (offset + c.utf8Size)
  | read {done : List Char} {reading next : Reading} {offset : Nat} {c : Char}
      (h : Reaches limit done reading offset) (hblank : Text.isBlank c = false)
      (hstep : step limit reading c offset = .ok next) :
      Reaches limit (done ++ [c]) next (offset + c.utf8Size)

/-- The cursor has passed whole characters only. -/
theorem Reaches.offset_eq {limit : Nat} {done : List Char} {reading : Reading} {offset : Nat}
    (h : Reaches limit done reading offset) : offset = Text.byteLength done := by
  induction h with
  | start => rfl
  | blank _ _ ih => simp [ih]
  | read _ _ _ ih => simp [ih]

/-- A line is read on from what its beginning reaches. -/
theorem Reaches.advance_append {limit : Nat} {done : List Char} {reading : Reading}
    {offset : Nat} (h : Reaches limit done reading offset) (rest : List Char) :
    advance limit .start 0 (done ++ rest) = advance limit reading offset rest := by
  induction h generalizing rest with
  | start => rfl
  | blank _ hblank ih => rw [List.append_assoc, ih, List.singleton_append, advance, if_pos hblank]
  | read _ hblank hstep ih =>
    rw [List.append_assoc, ih, List.singleton_append, advance, hblank, hstep]
    rfl

theorem Reaches.advance_ok {limit : Nat} {done chars : List Char} {reading next : Reading}
    {offset : Nat} (hdone : Reaches limit done reading offset)
    (h : advance limit reading offset chars = .ok next) :
    ∃ last, Reaches limit (done ++ chars) next last := by
  induction chars generalizing done reading offset with
  | nil =>
    cases h
    exact ⟨offset, by simpa using hdone⟩
  | cons c rest ih =>
    rw [advance] at h
    split at h
    · rename_i hblank
      simpa using ih (hdone.blank hblank) h
    · rename_i hblank
      split at h
      · rename_i mid hstep
        simpa using ih (hdone.read (Bool.eq_false_iff.2 hblank) hstep) h
      · cases h

/-- What is reached by a text is what reading the text gives. -/
theorem reaches_iff {limit : Nat} {done : List Char} {reading : Reading} {offset : Nat} :
    Reaches limit done reading offset ↔
      advance limit .start 0 done = .ok reading ∧ offset = Text.byteLength done := by
  constructor
  · intro h
    have hread := h.advance_append []
    rw [List.append_nil] at hread
    exact ⟨hread, h.offset_eq⟩
  · rintro ⟨hread, rfl⟩
    obtain ⟨last, hlast⟩ := Reaches.start.advance_ok hread
    rw [List.nil_append] at hlast
    rwa [← hlast.offset_eq]

end Reading

end ArrayLang
