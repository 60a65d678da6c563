import ArrayLang.Expr.Basic
import ArrayLang.Proofs.ReadingCourse

set_option autoImplicit false

/-!
# What the reader has read

A reading holds the whole text read so far: written out from the outermost frame
to the operand in hand, it is that text without its blanks.  Every tree in it is
canonical and stays within the limit, counted from the height at which it stands.
Both are kept by every step, so an accepted line is the written form of the tree
it gives.
-/

namespace ArrayLang

namespace Expr

/-- The tree can be read above `height` waiting frames. -/
structure FitsAbove (limit height : Nat) (e : Expr) : Prop where
  canonical : e.Canonical
  nesting_le : height + e.nesting ≤ limit

theorem toList_text_noun {d : UInt8} (h : d ≤ 9) :
    (noun d).text.toList = [d.toNat.digitChar] := by
  have hlt : d.toNat < 10 := Nat.lt_succ_of_le (UInt8.le_iff_toNat_le.1 h)
  rw [text, Nat.repr_of_lt hlt]
  simp

@[simp] theorem toList_text_var (name : Char) : (var name).text.toList = [name] := by
  simp [text]

@[simp] theorem toList_text_group (inner : Expr) :
    (group inner).text.toList = '(' :: inner.text.toList ++ [')'] := by
  simp [text]

@[simp] theorem toList_text_monad (verb : Verb) (right : Expr) :
    (monad verb right).text.toList = verb.glyph :: right.text.toList := by
  simp [text, Verb.text]

@[simp] theorem toList_text_dyad (verb : Verb) (left right : Expr) :
    (dyad verb left right).text.toList =
      left.text.toList ++ verb.glyph :: right.text.toList := by
  simp [text, Verb.text]

@[simp] theorem toList_text_assign (name : Char) (value : Expr) :
    (assign name value).text.toList = name :: '=' :: value.text.toList := by
  simp [text]

end Expr

namespace Frame

/-! ## Frames -/

/-- The characters that the frame was read from. -/
def text : Frame → List Char
  | monad verb => [verb.glyph]
  | dyad verb left => left.text.toList ++ [verb.glyph]
  | assign name => [name, '=']
  | group _ => ['(']

/-- The characters that a stack was read from, outermost frame first. -/
def stackText (stack : List Frame) : List Char := stack.reverse.flatMap text

@[simp] theorem stackText_nil : stackText [] = [] := rfl

@[simp] theorem stackText_cons (frame : Frame) (rest : List Frame) :
    stackText (frame :: rest) = stackText rest ++ frame.text := by
  simp [stackText]

/-- What the frame holds can be read above `height` waiting frames. -/
def FitsAbove (limit height : Nat) : Frame → Prop
  | monad _ | group _ => True
  | dyad _ left => left.IsOperand ∧ left.FitsAbove limit height
  | assign name => Slot.isName name = true

/-- Every frame fits above those below it, and there are at most `limit`. -/
def StackFits (limit : Nat) : List Frame → Prop
  | [] => True
  | frame :: rest =>
    rest.length < limit ∧ frame.FitsAbove limit rest.length ∧ StackFits limit rest

theorem StackFits.length_le {limit : Nat} {stack : List Frame} (h : StackFits limit stack) :
    stack.length ≤ limit := by
  cases stack with
  | nil => exact Nat.zero_le limit
  | cons frame rest => exact h.1

/-- A filled frame fits where the frame stood, if what fills it fits above. -/
theorem fitsAbove_fill {limit height : Nat} {frame : Frame} {e : Expr}
    (hframe : frame.FitsAbove limit height) (he : e.FitsAbove limit (height + 1)) :
    (frame.fill e).FitsAbove limit height := by
  have hnest := he.nesting_le
  cases frame with
  | monad verb =>
    refine ⟨he.canonical, ?_⟩
    simp only [fill, Expr.nesting]
    omega
  | dyad verb left =>
    obtain ⟨hoperand, hleft⟩ := hframe
    have hnestLeft := hleft.nesting_le
    refine ⟨⟨hoperand, hleft.canonical, he.canonical⟩, ?_⟩
    simp only [fill, Expr.nesting]
    omega
  | assign name =>
    refine ⟨⟨hframe, he.canonical⟩, ?_⟩
    simp only [fill, Expr.nesting]
    omega
  | group offset =>
    refine ⟨he.canonical, ?_⟩
    simp only [fill, Expr.nesting]
    omega

/-- The innermost group is closed by a `)` after all that was read. -/
theorem closeGroup?_sound {limit : Nat} {stack outer : List Frame} {e closed : Expr}
    (hstack : StackFits limit stack) (he : e.FitsAbove limit stack.length)
    (h : closeGroup? stack e = some (outer, closed)) :
    StackFits limit outer ∧ closed.IsOperand ∧ closed.FitsAbove limit outer.length ∧
      stackText outer ++ closed.text.toList = stackText stack ++ e.text.toList ++ [')'] := by
  induction stack generalizing e with
  | nil => simp [closeGroup?] at h
  | cons frame rest ih =>
    obtain ⟨-, hframe, hrest⟩ := hstack
    have hfill := fitsAbove_fill hframe he
    cases frame with
    | group offset =>
      simp only [closeGroup?, Option.some.injEq, Prod.mk.injEq] at h
      obtain ⟨rfl, rfl⟩ := h
      exact ⟨hrest, trivial, hfill, by simp [text]⟩
    | monad | dyad | assign =>
      obtain ⟨houter, hoperand, hclosed, htext⟩ := ih hrest hfill h
      exact ⟨houter, hoperand, hclosed, by simp [htext, fill, text]⟩

/-- A completed stack is a tree that stands alone, and says what the stack said. -/
theorem complete_sound {limit : Nat} {stack : List Frame} {e whole : Expr}
    (hstack : StackFits limit stack) (he : e.FitsAbove limit stack.length)
    (h : complete stack e = .ok whole) :
    whole.FitsAbove limit 0 ∧ whole.text.toList = stackText stack ++ e.text.toList := by
  induction stack generalizing e with
  | nil =>
    simp only [complete, Except.ok.injEq] at h
    subst h
    exact ⟨he, by simp⟩
  | cons frame rest ih =>
    obtain ⟨-, hframe, hrest⟩ := hstack
    have hfill := fitsAbove_fill hframe he
    cases frame with
    | group offset => simp [complete] at h
    | monad | dyad | assign =>
      obtain ⟨hwhole, htext⟩ := ih hrest hfill h
      exact ⟨hwhole, by simp [htext, fill, text]⟩

end Frame

namespace Reading

/-! ## Readings -/

/-- The non-blank characters read so far. -/
def text : Reading → List Char
  | operand stack => Frame.stackText stack
  | operator stack left => Frame.stackText stack ++ left.text.toList

@[simp] theorem text_operand (stack : List Frame) :
    (operand stack).text = Frame.stackText stack := rfl

@[simp] theorem text_operator (stack : List Frame) (left : Expr) :
    (operator stack left).text = Frame.stackText stack ++ left.text.toList := rfl

/-- All trees in the reading are canonical and within the limit. -/
def Fits (limit : Nat) : Reading → Prop
  | operand stack => Frame.StackFits limit stack
  | operator stack left =>
    Frame.StackFits limit stack ∧ left.IsOperand ∧ left.FitsAbove limit stack.length

theorem push_sound {limit : Nat} {stack : List Frame} {frame : Frame} {c : Char} {offset : Nat}
    {next : Reading} (h : push limit stack frame c offset = .ok next)
    (hstack : Frame.StackFits limit stack) (hframe : frame.FitsAbove limit stack.length) :
    next.Fits limit ∧ next.text = Frame.stackText stack ++ frame.text := by
  obtain ⟨hlt, rfl⟩ := push_ok h
  exact ⟨⟨hlt, hframe, hstack⟩, Frame.stackText_cons frame stack⟩

/-- One step adds its character to the text and keeps the reading fit. -/
theorem step_sound {limit : Nat} {reading next : Reading} {c : Char} {offset : Nat}
    (hfits : reading.Fits limit) (h : step limit reading c offset = .ok next) :
    next.Fits limit ∧ next.text = reading.text ++ [c] := by
  have hc := Token.writtenBy_ofChar c
  cases reading with
  | operand stack =>
    have hlen := Frame.StackFits.length_le hfits
    cases ht : Token.ofChar c with
    | verb verb =>
      simp only [step, ht] at h
      rw [ht] at hc
      cases hc
      exact push_sound h hfits trivial
    | digit value =>
      simp only [step, ht] at h
      rw [ht] at hc
      obtain ⟨hd, rfl⟩ := hc
      cases h
      refine ⟨⟨hfits, trivial, hd, hlen⟩, ?_⟩
      simp [Expr.toList_text_noun hd]
    | letter name =>
      simp only [step, ht] at h
      rw [ht] at hc
      obtain ⟨hname, rfl⟩ := hc
      cases h
      exact ⟨⟨hfits, trivial, hname, hlen⟩, by simp⟩
    | opening =>
      simp only [step, ht] at h
      rw [ht] at hc
      cases hc
      exact push_sound h hfits trivial
    | closing | equals | other =>
      simp only [step, ht] at h
      cases h
  | operator stack left =>
    obtain ⟨hstack, hoperand, hleft⟩ := hfits
    cases ht : Token.ofChar c with
    | verb verb =>
      simp only [step, ht] at h
      rw [ht] at hc
      cases hc
      obtain ⟨hnext, htext⟩ := push_sound h hstack ⟨hoperand, hleft⟩
      exact ⟨hnext, by simp [htext, Frame.text]⟩
    | closing =>
      simp only [step, ht] at h
      rw [ht] at hc
      cases hc
      split at h
      · rename_i outer closed hclose
        cases h
        obtain ⟨houter, hop, hclosed, htext⟩ := Frame.closeGroup?_sound hstack hleft hclose
        exact ⟨⟨houter, hop, hclosed⟩, htext⟩
      · cases h
    | equals =>
      simp only [step, ht] at h
      rw [ht] at hc
      cases hc
      split at h
      · rename_i name
        obtain ⟨hnext, htext⟩ := push_sound h hstack hleft.canonical
        exact ⟨hnext, by simp [htext, Frame.text]⟩
      · cases h
    | digit | letter | opening | other =>
      simp only [step, ht] at h
      cases h

/-- Reading on adds the non-blank characters to the text and keeps the reading fit. -/
theorem advance_sound {limit : Nat} {chars : List Char} {reading next : Reading} {offset : Nat}
    (hfits : reading.Fits limit) (h : advance limit reading offset chars = .ok next) :
    next.Fits limit ∧ next.text = reading.text ++ Text.withoutBlanks chars := by
  induction chars generalizing reading offset with
  | nil =>
    cases h
    exact ⟨hfits, by simp [Text.withoutBlanks]⟩
  | cons c rest ih =>
    rw [advance] at h
    split at h
    · rename_i hblank
      obtain ⟨hnext, htext⟩ := ih hfits h
      exact ⟨hnext, by simp [htext, Text.withoutBlanks, hblank]⟩
    · rename_i hblank
      split at h
      · rename_i mid hstep
        obtain ⟨hmid, htextMid⟩ := step_sound hfits hstep
        obtain ⟨hnext, htext⟩ := ih hmid h
        exact ⟨hnext, by simp [htext, htextMid, Text.withoutBlanks, hblank]⟩
      · cases h

/-- What has been read from the start is, up to blanks, the text of the reading. -/
theorem advance_start_sound {limit : Nat} {chars : List Char} {reading : Reading} {offset : Nat}
    (h : advance limit .start offset chars = .ok reading) :
    reading.Fits limit ∧ reading.text = Text.withoutBlanks chars := by
  have hstart : start.Fits limit := trivial
  exact advance_sound hstart h

/-- A reading that ends well gives the tree of its text. -/
theorem finish_sound {limit : Nat} {reading : Reading} {offset : Nat} {e : Expr}
    (hfits : reading.Fits limit) (h : reading.finish offset = .ok e) :
    e.FitsAbove limit 0 ∧ e.text.toList = reading.text := by
  cases reading with
  | operand stack => cases h
  | operator stack left => exact Frame.complete_sound hfits.1 hfits.2.2 h

end Reading

/-- An accepted line is, up to blanks, the written form of the tree that it gives. -/
theorem parse_sound {limit : Nat} {line : String} {e : Expr} (h : parse limit line = .ok e) :
    e.FitsAbove limit 0 ∧ e.text.toList = Text.withoutBlanks line.toList := by
  unfold parse at h
  split at h
  · rename_i reading hadvance
    obtain ⟨hfits, htext⟩ := Reading.advance_start_sound hadvance
    obtain ⟨he, hwritten⟩ := Reading.finish_sound hfits h
    exact ⟨he, hwritten.trans htext⟩
  · cases h

end ArrayLang
