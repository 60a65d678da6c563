import ArrayLang.Proofs.ReadingComplete

set_option autoImplicit false

/-!
# The letters of a line

Every letter of an accepted line is a variable, and the character after it tells
whether the variable is assigned or read there.  The tree of the line mentions the
same variables in the same way and in the same order, from left to right.
-/

namespace ArrayLang

/-- A letter of a line, by what is done there with the variable that it names. -/
inductive Mention where
  /-- the variable is read -/
  | read (name : Char)
  /-- the variable is assigned -/
  | write (name : Char)
  deriving DecidableEq, Repr

namespace Mention

/-- A letter stands for an assignment where the next non-blank character is `=`, and
for a reading everywhere else. -/
def ofLetter (name : Char) (after : List Char) : Mention :=
  if (Text.withoutBlanks after).head? = some '=' then .write name else .read name

/-- The letters of a text, from left to right. -/
def ofText : List Char → List Mention
  | [] => []
  | c :: rest => if Slot.isName c then ofLetter c rest :: ofText rest else ofText rest

end Mention

/-- The variables that a tree mentions, from left to right. -/
def Expr.mentions : Expr → List Mention
  | noun _ => []
  | var name => [.read name]
  | group inner => inner.mentions
  | monad _ right => right.mentions
  | dyad _ left right => left.mentions ++ right.mentions
  | assign name value => .write name :: value.mentions

/-- A character that is no letter to the reader names no variable. -/
theorem Token.isName_eq_false_of_ofChar {c : Char} {t : Token} (ht : Token.ofChar c = t)
    (h : ∀ name, t ≠ .letter name) : Slot.isName c = false := by
  rw [Bool.eq_false_iff]
  intro hname
  exact h c (ht.symm.trans (Token.ofChar_name hname))

namespace Mention

/-! ## Blanks -/

theorem ofText_cons_of_ofChar {c : Char} {t : Token} (ht : Token.ofChar c = t)
    (h : ∀ name, t ≠ .letter name) (rest : List Char) : ofText (c :: rest) = ofText rest := by
  rw [ofText, Token.isName_eq_false_of_ofChar ht h]
  rfl

theorem ofLetter_withoutBlanks (name : Char) (after : List Char) :
    ofLetter name (Text.withoutBlanks after) = ofLetter name after := by
  simp [ofLetter, Text.withoutBlanks, List.filter_filter]

/-- Blanks are no letters, and a letter is told from what follows the blanks. -/
theorem ofText_withoutBlanks (text : List Char) :
    ofText (Text.withoutBlanks text) = ofText text := by
  induction text with
  | nil => rfl
  | cons c rest ih =>
    cases hblank : Text.isBlank c with
    | true =>
      have hother : Token.ofChar c = .other := by
        apply Decidable.byContradiction
        intro hne
        rw [Token.isBlank_eq_false_of_ofChar_ne_other hne] at hblank
        cases hblank
      have hskip : Text.withoutBlanks (c :: rest) = Text.withoutBlanks rest := by
        simp [Text.withoutBlanks, hblank]
      rw [hskip, ih, ofText_cons_of_ofChar hother (by simp)]
    | false =>
      have hkeep : Text.withoutBlanks (c :: rest) = c :: Text.withoutBlanks rest := by
        simp [Text.withoutBlanks, hblank]
      rw [hkeep, ofText, ofText, ofLetter_withoutBlanks, ih]

/-! ## The written form of a tree -/

/-- What follows is not taken for the `=` of an assignment. -/
def NoEquals (after : List Char) : Prop := (Text.withoutBlanks after).head? ≠ some '='

theorem noEquals_cons {c : Char} {t : Token} (ht : Token.ofChar c = t) (hother : t ≠ .other)
    (hequals : t ≠ .equals) (rest : List Char) : NoEquals (c :: rest) := by
  subst ht
  have hblank := Token.isBlank_eq_false_of_ofChar_ne_other hother
  have hne : c ≠ '=' := by
    rintro rfl
    exact hequals (by decide)
  simp [NoEquals, Text.withoutBlanks, hblank, hne]

/-- The letters of a written tree are what the tree mentions. -/
theorem ofText_text {e : Expr} (h : e.Canonical) {after : List Char} (hafter : NoEquals after) :
    ofText (e.text.toList ++ after) = e.mentions ++ ofText after := by
  induction e generalizing after with
  | noun value =>
    rw [Expr.toList_text_noun h]
    exact ofText_cons_of_ofChar (Token.ofChar_digitChar h) (by simp) after
  | var name =>
    rw [Expr.toList_text_var]
    have hread : ofLetter name after = .read name := if_neg hafter
    simp [ofText, show Slot.isName name = true from h, hread, Expr.mentions]
  | group inner ih =>
    have hopening : Token.ofChar '(' = .opening := by decide
    have hclosing : Token.ofChar ')' = .closing := by decide
    have hinner := ih h (noEquals_cons hclosing (by simp) (by simp) after)
    rw [ofText_cons_of_ofChar hclosing (by simp)] at hinner
    simp only [Expr.toList_text_group, List.cons_append, List.append_assoc, List.nil_append]
    rw [ofText_cons_of_ofChar hopening (by simp)]
    exact hinner
  | monad verb right ih =>
    rw [Expr.toList_text_monad, List.cons_append,
      ofText_cons_of_ofChar (Token.ofChar_glyph verb) (by simp)]
    exact ih h hafter
  | dyad verb left right ihLeft ihRight =>
    obtain ⟨-, hleft, hright⟩ := h
    have hverb := Token.ofChar_glyph verb
    rw [Expr.toList_text_dyad, List.append_assoc, List.cons_append,
      ihLeft hleft (noEquals_cons hverb (by simp) (by simp) _),
      ofText_cons_of_ofChar hverb (by simp), ihRight hright hafter, ← List.append_assoc]
    rfl
  | assign name value ih =>
    obtain ⟨hname, hvalue⟩ := h
    have hequals : Token.ofChar '=' = .equals := by decide
    have hblank : Text.isBlank '=' = false := by decide
    have hwrite (rest : List Char) : ofLetter name ('=' :: rest) = .write name := by
      simp [ofLetter, Text.withoutBlanks, hblank]
    rw [Expr.toList_text_assign, List.cons_append, List.cons_append, ofText, if_pos hname,
      hwrite, ofText_cons_of_ofChar hequals (by simp), ih hvalue hafter]
    rfl

/-- The letters of an accepted line are what its tree mentions. -/
theorem ofText_of_parse {limit : Nat} {line : String} {e : Expr}
    (h : parse limit line = .ok e) : ofText line.toList = e.mentions := by
  obtain ⟨hfits, htext⟩ := parse_sound h
  have hend : NoEquals [] := by simp [NoEquals, Text.withoutBlanks]
  have hwritten := ofText_text hfits.canonical hend
  rw [List.append_nil] at hwritten
  rw [← ofText_withoutBlanks, ← htext, hwritten]
  simp [ofText]

end Mention

end ArrayLang
