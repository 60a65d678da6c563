import ArrayLang.Proofs.NumberLines
import ArrayLang.Proofs.ReadingPrefix
import ArrayLang.Proofs.ReadingSound
import ArrayLang.Proofs.Session

set_option autoImplicit false

/-!
# Messages fit on a line

What a line fails with is told in words, numbers and the characters at fault, and the
only blank in a message is the space.  Characters stand in it as they are: but the
reader passes over blanks, so the character that it refuses is none, and an evaluation
finds fault with letters only.
-/

namespace ArrayLang

/-! ## Texts without other blanks -/

namespace Text

/-- The text has no blank but the space. -/
def BlanksAreSpaces (text : String) : Prop := ∀ c ∈ text.toList, isBlank c = true → c = ' '

/-- The fixed parts of messages are checked character by character. -/
theorem blanksAreSpaces_ofList {chars : List Char}
    (h : (chars.all fun c => !isBlank c || c == ' ') = true) :
    BlanksAreSpaces (String.ofList chars) := by
  intro c hc hblank
  rw [String.toList_ofList] at hc
  have hchar := List.all_eq_true.1 h c hc
  simpa [hblank] using hchar

theorem BlanksAreSpaces.append {s t : String} (hs : BlanksAreSpaces s)
    (ht : BlanksAreSpaces t) : BlanksAreSpaces (s ++ t) := by
  intro c hc
  rw [String.toList_append, List.mem_append] at hc
  exact hc.elim (hs c) (ht c)

theorem blanksAreSpaces_of_not_blank {text : String} (h : ∀ c ∈ text.toList, isBlank c = false) :
    BlanksAreSpaces text := by
  intro c hc hblank
  rw [h c hc] at hblank
  cases hblank

theorem blanksAreSpaces_singleton {c : Char} (h : isBlank c = false) :
    BlanksAreSpaces (String.singleton c) := by
  apply blanksAreSpaces_of_not_blank
  simpa using h

theorem blanksAreSpaces_intercalate {sep : String} (hsep : BlanksAreSpaces sep)
    {parts : List String} (h : ∀ part ∈ parts, BlanksAreSpaces part) :
    BlanksAreSpaces (sep.intercalate parts) := by
  induction parts with
  | nil => exact blanksAreSpaces_ofList rfl
  | cons part rest ih =>
    have hpart := h part List.mem_cons_self
    have hrest := ih fun other hother => h other (List.mem_cons_of_mem part hother)
    cases rest with
    | nil => rwa [String.intercalate_singleton]
    | cons next rest =>
      rw [String.intercalate_cons_cons]
      exact (hpart.append hsep).append hrest

/-- Such a text stands on one line. -/
theorem BlanksAreSpaces.lineFeed_not_mem {text : String} (h : BlanksAreSpaces text) :
    '\n' ∉ text.toList := by
  intro hmem
  exact absurd (h '\n' hmem (by decide)) (by decide)

end Text

open Text (BlanksAreSpaces)

/-! ## The parts of messages -/

theorem IsNumeral.isBlank_eq_false {c : Char} (h : IsNumeral c) : Text.isBlank c = false := by
  rcases h with hdigit | rfl
  · have hnot : Token.ofChar c ≠ .other := by
      obtain ⟨hle, hc⟩ := Token.digitChar_toUInt8 hdigit
      rw [hc, Token.ofChar_digitChar hle]
      simp
    exact Token.isBlank_eq_false_of_ofChar_ne_other hnot
  · decide

theorem IsNumber.blanksAreSpaces {text : String} (h : IsNumber text.toList) :
    BlanksAreSpaces text :=
  Text.blanksAreSpaces_of_not_blank fun c hc => (h.numerals c hc).isBlank_eq_false

theorem Text.blanksAreSpaces_repr (n : Nat) : BlanksAreSpaces n.repr :=
  (isNumber_repr n).blanksAreSpaces

theorem Element.blanksAreSpaces_text (n : Element) : BlanksAreSpaces n.text :=
  n.isNumber_text.blanksAreSpaces

theorem Verb.blanksAreSpaces_text (verb : Verb) : BlanksAreSpaces verb.text := by
  apply Text.blanksAreSpaces_singleton
  cases verb <;> decide

theorem Valence.blanksAreSpaces_text (valence : Valence) :
    BlanksAreSpaces valence.text := by
  cases valence <;> exact Text.blanksAreSpaces_ofList rfl

theorem Kind.blanksAreSpaces_text (kind : Kind) : BlanksAreSpaces kind.text := by
  cases kind <;> exact Text.blanksAreSpaces_ofList rfl

theorem RankDemand.blanksAreSpaces_text (demand : RankDemand) :
    BlanksAreSpaces demand.text := by
  cases demand <;> exact Text.blanksAreSpaces_ofList rfl

theorem Shape.blanksAreSpaces_text (s : Shape) : BlanksAreSpaces s.text := by
  have hlengths : BlanksAreSpaces (", ".intercalate (s.map Nat.repr)) := by
    apply Text.blanksAreSpaces_intercalate (Text.blanksAreSpaces_ofList rfl)
    intro part hpart
    obtain ⟨n, -, rfl⟩ := List.mem_map.1 hpart
    exact Text.blanksAreSpaces_repr n
  exact (Text.blanksAreSpaces_ofList rfl |>.append hlengths)
    |>.append (Text.blanksAreSpaces_ofList rfl)

/-! ## Reading -/

namespace ParseError

/-- The character that the error names. -/
def found? : ParseError → Option Char
  | unexpectedChar found _ | unknownVerb found _ => some found
  | unexpectedEnd _ | unclosedGroup _ | invalidTarget _ | tooDeep _ _ => none

/-- The character that it names decides whether the blanks of a message are spaces. -/
theorem blanksAreSpaces_message {cause : ParseError}
    (h : ∀ c, cause.found? = some c → Text.isBlank c = false) :
    BlanksAreSpaces cause.message := by
  cases cause with
  | unexpectedChar found offset | unknownVerb found offset =>
    have hfound := Text.blanksAreSpaces_singleton (h found rfl)
    exact Text.blanksAreSpaces_ofList rfl |>.append hfound
      |>.append (Text.blanksAreSpaces_ofList rfl)
      |>.append (Text.blanksAreSpaces_repr offset)
  | unexpectedEnd offset | unclosedGroup offset =>
    exact Text.blanksAreSpaces_ofList rfl |>.append (Text.blanksAreSpaces_repr offset)
  | invalidTarget offset =>
    exact Text.blanksAreSpaces_ofList rfl |>.append (Text.blanksAreSpaces_repr offset)
      |>.append (Text.blanksAreSpaces_ofList rfl)
  | tooDeep limit offset =>
    exact Text.blanksAreSpaces_ofList rfl |>.append (Text.blanksAreSpaces_repr limit)
      |>.append (Text.blanksAreSpaces_ofList rfl)
      |>.append (Text.blanksAreSpaces_repr offset)

end ParseError

/-- The reader never refuses a blank. -/
theorem isBlank_of_parse_error {limit : Nat} {line : String} {cause : ParseError}
    (h : parse limit line = .error cause) {c : Char} (hc : cause.found? = some c) :
    Text.isBlank c = false := by
  rcases parse_error_cases h with ⟨hincomplete, -⟩ | ⟨-, hadvance⟩
  · cases cause with
    | unexpectedEnd | unclosedGroup | invalidTarget | tooDeep => cases hc
    | unexpectedChar | unknownVerb => cases hincomplete
  · obtain ⟨before, d, after, mid, -, hd, -, hstep⟩ := Reading.advance_error hadvance
    rcases Reading.step_error hstep with rfl | rfl | rfl | rfl
    · cases hc
      exact hd
    · cases hc
      exact hd
    · cases hc
    · cases hc

/-! ## Evaluation -/

namespace EvalError

theorem blanksAreSpaces_of_isStructural {cause : EvalError} (h : cause.isStructural = true) :
    BlanksAreSpaces cause.message := by
  cases cause with
  | undefinedVariable | invalidVariable | negativeLength => cases h
  | shapeMismatch verb left right =>
    exact Text.blanksAreSpaces_ofList rfl |>.append verb.blanksAreSpaces_text
      |>.append (Text.blanksAreSpaces_ofList rfl) |>.append left.blanksAreSpaces_text
      |>.append (Text.blanksAreSpaces_ofList rfl) |>.append right.blanksAreSpaces_text
  | kindMismatch verb expected got =>
    exact Text.blanksAreSpaces_ofList rfl |>.append verb.blanksAreSpaces_text
      |>.append (Text.blanksAreSpaces_ofList rfl) |>.append expected.blanksAreSpaces_text
      |>.append (Text.blanksAreSpaces_ofList rfl) |>.append got.blanksAreSpaces_text
  | rankMismatch verb expected got =>
    exact Text.blanksAreSpaces_ofList rfl |>.append verb.blanksAreSpaces_text
      |>.append (Text.blanksAreSpaces_ofList rfl) |>.append expected.blanksAreSpaces_text
      |>.append (Text.blanksAreSpaces_ofList rfl) |>.append (Text.blanksAreSpaces_repr got)
  | indexOutOfBounds index length =>
    exact Text.blanksAreSpaces_ofList rfl |>.append index.blanksAreSpaces_text
      |>.append (Text.blanksAreSpaces_ofList rfl) |>.append (Text.blanksAreSpaces_repr length)
  | rankTooHigh rank =>
    exact Text.blanksAreSpaces_ofList rfl |>.append (Text.blanksAreSpaces_repr rank)
      |>.append (Text.blanksAreSpaces_ofList rfl) |>.append (Text.blanksAreSpaces_repr maxRank)
  | emptySource => exact Text.blanksAreSpaces_ofList rfl
  | overflow verb =>
    exact Text.blanksAreSpaces_ofList rfl |>.append verb.blanksAreSpaces_text
      |>.append (Text.blanksAreSpaces_ofList rfl)
  | unimplemented verb valence =>
    exact valence.blanksAreSpaces_text.append (Text.blanksAreSpaces_ofList rfl)
      |>.append verb.blanksAreSpaces_text |>.append (Text.blanksAreSpaces_ofList rfl)

theorem blanksAreSpaces_negativeLength (verb : Verb) (n : Element) :
    BlanksAreSpaces (negativeLength verb n).message := by
  exact Text.blanksAreSpaces_ofList rfl |>.append n.blanksAreSpaces_text
    |>.append (Text.blanksAreSpaces_ofList rfl) |>.append verb.blanksAreSpaces_text
    |>.append (Text.blanksAreSpaces_ofList rfl)

theorem blanksAreSpaces_undefinedVariable {name : Char} (h : Slot.isName name = true) :
    BlanksAreSpaces (undefinedVariable name).message := by
  have hblank : Text.isBlank name = false := by
    apply Token.isBlank_eq_false_of_ofChar_ne_other
    rw [Token.ofChar_name h]
    simp
  exact Text.blanksAreSpaces_ofList rfl |>.append (Text.blanksAreSpaces_singleton hblank)

end EvalError

/-- The expression of a line fails with a message whose blanks are spaces. -/
theorem Expr.Canonical.blanksAreSpaces_message {e : Expr} (h : e.Canonical) {env : Environment}
    {cause : EvalError} (hfail : (e.eval env).1 = .error cause) :
    BlanksAreSpaces cause.message := by
  rcases h.eval_error_origin hfail with ⟨name, hname, rfl⟩ | ⟨app, -, happ⟩
  · exact EvalError.blanksAreSpaces_undefinedVariable hname
  · rcases Application.result_error happ with hstructural | ⟨w, n, -, -, -, rfl⟩ |
      ⟨s, lengths, w, n, -, -, -, rfl⟩
    · exact EvalError.blanksAreSpaces_of_isStructural hstructural
    · exact EvalError.blanksAreSpaces_negativeLength .tilde n
    · exact EvalError.blanksAreSpaces_negativeLength .hash n

/-- Whatever a line of a session fails with, its message has no blank but the space. -/
theorem Session.blanksAreSpaces_message {session : Session} {line : String} {cause : LineError}
    (h : (session.evalLine line).1 = .failure cause) : BlanksAreSpaces cause.message := by
  rcases session.evalLine_cases line with ⟨-, hline⟩ | ⟨-, failure, hparse, hline⟩ |
    ⟨-, e, failure, env, hparse, heval, hline⟩ | ⟨-, e, value, env, -, -, hline⟩
  · rw [hline] at h
    cases h
  · rw [hline] at h
    cases h
    have hcause := ParseError.blanksAreSpaces_message fun c hc => isBlank_of_parse_error hparse hc
    exact Text.blanksAreSpaces_ofList rfl |>.append hcause
  · rw [hline] at h
    cases h
    have hcanonical := (parse_sound hparse).1.canonical
    exact hcanonical.blanksAreSpaces_message (congrArg Prod.fst heval)
  · rw [hline] at h
    cases h

end ArrayLang
