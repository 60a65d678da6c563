import ArrayLang.Proofs.ReadingSound

set_option autoImplicit false

/-!
# Every written tree is read back

The reader does not put a tree together before its right end is reached: what it
holds after the last character of a tree is the tree's last operand, under the
frames of all the verbs and assignments that wait for it.  Closing or completing
that stack gives the tree.  Together with soundness this makes `parse` the exact
inverse of `Expr.text`, up to blanks.
-/

namespace ArrayLang

namespace Expr

/-! ## The right edge of a tree -/

/-- The frames above the last operand of the tree, innermost first. -/
def edge : Expr → List Frame
  | noun _ | var _ | group _ => []
  | monad verb right => right.edge ++ [.monad verb]
  | dyad verb left right => right.edge ++ [.dyad verb left]
  | assign name value => value.edge ++ [.assign name]

/-- The last operand of the tree. -/
def lastOperand : Expr → Expr
  | noun value => noun value
  | var name => var name
  | group inner => group inner
  | monad _ right => right.lastOperand
  | dyad _ _ right => right.lastOperand
  | assign _ value => value.lastOperand

theorem IsOperand.edge_eq {e : Expr} (h : e.IsOperand) : e.edge = [] ∧ e.lastOperand = e := by
  cases e with
  | noun | var | group => exact ⟨rfl, rfl⟩
  | monad | dyad | assign => exact absurd h id

theorem closeGroup?_edge (e : Expr) (stack : List Frame) :
    Frame.closeGroup? (e.edge ++ stack) e.lastOperand = Frame.closeGroup? stack e := by
  induction e generalizing stack with
  | noun | var | group => rfl
  | monad verb right ih =>
    rw [edge, List.append_assoc, lastOperand, ih]
    rfl
  | dyad verb left right _ ih =>
    rw [edge, List.append_assoc, lastOperand, ih]
    rfl
  | assign name value ih =>
    rw [edge, List.append_assoc, lastOperand, ih]
    rfl

theorem complete_edge (e : Expr) (stack : List Frame) :
    Frame.complete (e.edge ++ stack) e.lastOperand = Frame.complete stack e := by
  induction e generalizing stack with
  | noun | var | group => rfl
  | monad verb right ih =>
    rw [edge, List.append_assoc, lastOperand, ih]
    rfl
  | dyad verb left right _ ih =>
    rw [edge, List.append_assoc, lastOperand, ih]
    rfl
  | assign name value ih =>
    rw [edge, List.append_assoc, lastOperand, ih]
    rfl

end Expr

namespace Reading

/-! ## Reading a text, however it is spaced -/

/-- Reading `text`, with any blanks and from any offset, leads from `reading` to
`next`. -/
def Reads (limit : Nat) (reading : Reading) (text : List Char) (next : Reading) : Prop :=
  ∀ (chars : List Char) (offset : Nat), Text.withoutBlanks chars = text →
    advance limit reading offset chars = .ok next

theorem Reads.nil (limit : Nat) (reading : Reading) : Reads limit reading [] reading := by
  intro chars
  induction chars with
  | nil =>
    intro offset _
    rfl
  | cons c rest ih =>
    intro offset h
    by_cases hblank : Text.isBlank c = true
    · rw [advance, if_pos hblank]
      exact ih _ (by simpa [Text.withoutBlanks, hblank] using h)
    · simp [Text.withoutBlanks, hblank] at h

/-- One character first: the state after it may depend on where it stands. -/
theorem Reads.cons {limit : Nat} {reading next : Reading} {c : Char} {text : List Char}
    (hstep : ∀ offset, ∃ mid, step limit reading c offset = .ok mid ∧ Reads limit mid text next) :
    Reads limit reading (c :: text) next := by
  intro chars
  induction chars with
  | nil =>
    intro offset h
    cases h
  | cons d rest ih =>
    intro offset h
    by_cases hblank : Text.isBlank d = true
    · rw [advance, if_pos hblank]
      exact ih _ (by simpa [Text.withoutBlanks, hblank] using h)
    · obtain ⟨rfl, hrest⟩ : d = c ∧ Text.withoutBlanks rest = text := by
        simpa [Text.withoutBlanks, hblank] using h
      obtain ⟨mid, hmid, hreads⟩ := hstep offset
      rw [advance, if_neg hblank, hmid]
      exact hreads rest _ hrest

theorem Reads.append {limit : Nat} {reading mid next : Reading} {s t : List Char}
    (hs : Reads limit reading s mid) (ht : Reads limit mid t next) :
    Reads limit reading (s ++ t) next := by
  intro chars offset h
  obtain ⟨first, second, rfl, hfirst, hsecond⟩ := List.filter_eq_append_iff.1 h
  rw [advance_append, hs first offset hfirst]
  exact ht second _ hsecond

theorem push_of_lt {limit : Nat} {stack : List Frame} (h : stack.length < limit)
    (frame : Frame) (c : Char) (offset : Nat) :
    push limit stack frame c offset = .ok (operand (frame :: stack)) := by
  rw [push, if_pos h]

/-- The written form of a canonical tree is read, wherever the limit leaves room
for it, to the tree's last operand below the frames of its right edge. -/
theorem reads_text {limit : Nat} {e : Expr} {stack : List Frame}
    (h : e.FitsAbove limit stack.length) :
    Reads limit (operand stack) e.text.toList (operator (e.edge ++ stack) e.lastOperand) := by
  induction e generalizing stack with
  | noun value =>
    obtain ⟨hvalue, -⟩ := h
    rw [Expr.toList_text_noun hvalue]
    refine Reads.cons fun offset => ⟨_, ?_, Reads.nil limit _⟩
    simp [step, Token.ofChar_digitChar hvalue, Expr.edge, Expr.lastOperand]
  | var name =>
    obtain ⟨hname, -⟩ := h
    rw [Expr.toList_text_var]
    refine Reads.cons fun offset => ⟨_, ?_, Reads.nil limit _⟩
    simp [step, Token.ofChar_name hname, Expr.edge, Expr.lastOperand]
  | group inner ih =>
    obtain ⟨hcanonical, hnesting⟩ := h
    rw [Expr.nesting] at hnesting
    rw [Expr.toList_text_group]
    refine Reads.cons fun offset => ?_
    have hopening : Token.ofChar '(' = .opening := by decide
    refine ⟨operand (.group offset :: stack), ?_, ?_⟩
    · simp only [step, hopening]
      exact push_of_lt (by omega) _ _ _
    · have hinner : inner.FitsAbove limit (Frame.group offset :: stack).length :=
        ⟨hcanonical, by simp only [List.length_cons]; omega⟩
      refine Reads.append (ih hinner) (Reads.cons fun offset' => ⟨_, ?_, Reads.nil limit _⟩)
      have hclosing : Token.ofChar ')' = .closing := by decide
      simp only [step, hclosing, Expr.closeGroup?_edge]
      rfl
  | monad verb right ih =>
    obtain ⟨hcanonical, hnesting⟩ := h
    rw [Expr.nesting] at hnesting
    rw [Expr.toList_text_monad]
    refine Reads.cons fun offset => ⟨operand (.monad verb :: stack), ?_, ?_⟩
    · simp only [step, Token.ofChar_glyph]
      exact push_of_lt (by omega) _ _ _
    · rw [Expr.edge, List.append_assoc]
      exact ih ⟨hcanonical, by simp only [List.length_cons]; omega⟩
  | dyad verb left right ihLeft ihRight =>
    obtain ⟨⟨hoperand, hleft, hright⟩, hnesting⟩ := h
    rw [Expr.nesting] at hnesting
    rw [Expr.toList_text_dyad]
    have hreads : Reads limit (operand stack) left.text.toList (operator stack left) := by
      have hfits : left.FitsAbove limit stack.length := ⟨hleft, by omega⟩
      simpa [hoperand.edge_eq] using ihLeft hfits
    refine Reads.append hreads
      (Reads.cons fun offset => ⟨operand (.dyad verb left :: stack), ?_, ?_⟩)
    · simp only [step, Token.ofChar_glyph]
      exact push_of_lt (by omega) _ _ _
    · rw [Expr.edge, List.append_assoc]
      exact ihRight ⟨hright, by simp only [List.length_cons]; omega⟩
  | assign name value ih =>
    obtain ⟨⟨hname, hvalue⟩, hnesting⟩ := h
    rw [Expr.nesting] at hnesting
    rw [Expr.toList_text_assign]
    refine Reads.cons fun offset => ⟨operator stack (.var name), ?_, ?_⟩
    · simp [step, Token.ofChar_name hname]
    · have hequals : Token.ofChar '=' = .equals := by decide
      refine Reads.cons fun offset' => ⟨operand (.assign name :: stack), ?_, ?_⟩
      · simp only [step, hequals]
        exact push_of_lt (by omega) _ _ _
      · rw [Expr.edge, List.append_assoc]
        exact ih ⟨hvalue, by simp only [List.length_cons]; omega⟩

end Reading

/-! ## Reading undoes writing -/

theorem parse_complete {limit : Nat} {line : String} {e : Expr} (he : e.FitsAbove limit 0)
    (htext : e.text.toList = Text.withoutBlanks line.toList) : parse limit line = .ok e := by
  have hreads : Reading.Reads limit .start e.text.toList _ := Reading.reads_text he
  rw [parse, hreads line.toList 0 htext.symm]
  simp only [Reading.finish, Expr.complete_edge]
  rfl

theorem parse_eq_ok_iff {limit : Nat} {line : String} {e : Expr} :
    parse limit line = .ok e ↔
      e.FitsAbove limit 0 ∧ e.text.toList = Text.withoutBlanks line.toList :=
  ⟨parse_sound, fun h => parse_complete h.1 h.2⟩

/-- Blanks come from the spacing of a line, never from the tree. -/
theorem Expr.Canonical.isBlank_eq_false {e : Expr} (h : e.Canonical) :
    ∀ c ∈ e.text.toList, Text.isBlank c = false := by
  have hverb (v : Verb) : Text.isBlank v.glyph = false := by
    cases v <;> decide
  induction e with
  | noun value =>
    rw [toList_text_noun h]
    simp [Token.isBlank_eq_false_of_ofChar_ne_other, Token.ofChar_digitChar h]
  | var name =>
    simp [Token.isBlank_eq_false_of_ofChar_ne_other, Token.ofChar_name h]
  | group inner ih =>
    have hopening : Text.isBlank '(' = false := by decide
    have hclosing : Text.isBlank ')' = false := by decide
    simpa [or_imp, forall_and, hopening, hclosing] using ih h
  | monad verb right ih =>
    simpa [hverb] using ih h
  | dyad verb left right ihLeft ihRight =>
    simpa [or_imp, forall_and, hverb] using And.intro (ihLeft h.2.1) (ihRight h.2.2)
  | assign name value ih =>
    have hequals : Text.isBlank '=' = false := by decide
    have hname := Token.isBlank_eq_false_of_ofChar_ne_other (c := name)
      (by simp [Token.ofChar_name h.1])
    simpa [hequals, hname] using ih h.2

theorem Expr.Canonical.withoutBlanks_text {e : Expr} (h : e.Canonical) :
    Text.withoutBlanks e.text.toList = e.text.toList := by
  rw [Text.withoutBlanks, List.filter_eq_self]
  intro c hc
  simp [h.isBlank_eq_false c hc]

theorem parse_text {limit : Nat} {e : Expr} (h : e.FitsAbove limit 0) :
    parse limit e.text = .ok e :=
  parse_complete h h.canonical.withoutBlanks_text.symm

/-- Reading accepts exactly the written forms of the canonical trees within the
limit, spaced in any way, and gives back the tree.  So reading undoes writing,
writing undoes reading up to blanks, and no two canonical trees are written alike. -/
theorem parse_inverts_text :
    (∀ (limit : Nat) (line : String) (e : Expr),
      parse limit line = .ok e ↔
        e.Canonical ∧ e.nesting ≤ limit ∧ e.text.toList = Text.withoutBlanks line.toList) ∧
    (∀ (limit : Nat) (e : Expr),
      e.Canonical → e.nesting ≤ limit → parse limit e.text = .ok e) ∧
    (∀ e₁ e₂ : Expr, e₁.Canonical → e₂.Canonical → e₁.text = e₂.text → e₁ = e₂) := by
  refine ⟨?_, ?_, ?_⟩
  · intro limit line e
    rw [parse_eq_ok_iff]
    constructor
    · rintro ⟨⟨hcanonical, hnesting⟩, htext⟩
      exact ⟨hcanonical, by omega, htext⟩
    · rintro ⟨hcanonical, hnesting, htext⟩
      exact ⟨⟨hcanonical, by omega⟩, htext⟩
  · intro limit e hcanonical hnesting
    exact parse_text ⟨hcanonical, by omega⟩
  · intro e₁ e₂ h₁ h₂ htext
    -- Both are what one and the same line reads to, under a limit that admits both.
    have hread₁ : parse (max e₁.nesting e₂.nesting) e₁.text = .ok e₁ :=
      parse_text ⟨h₁, by omega⟩
    have hread₂ : parse (max e₁.nesting e₂.nesting) e₂.text = .ok e₂ :=
      parse_text ⟨h₂, by omega⟩
    rw [htext, hread₂] at hread₁
    exact (Except.ok.inj hread₁).symm

/-- A group on the left and a monad on the right, spaced out, just within the limit. -/
theorem parse_inverts_text_spaced :
    parse 2 " ( 2,3 )\t# ~6 " =
      .ok (.dyad .hash (.group (.dyad .comma (.noun 2) (.noun 3))) (.monad .tilde (.noun 6))) :=
  (parse_inverts_text.1 2 " ( 2,3 )\t# ~6 " _).2 ⟨by decide, by decide, by decide⟩

end ArrayLang
