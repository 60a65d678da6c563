import ArrayLang.Expr.Reading
import ArrayLang.Text

set_option autoImplicit false

/-!
# Characters and their tokens

Every token other than `Token.other` is written by exactly one character, and no
such character is blank.  The proofs about the reader open `Token.ofChar` through
`Token.ofChar_eq_iff` only.
-/

namespace ArrayLang

namespace Slot

theorem isName_iff (c : Char) : isName c = true ↔ ∃ s : Slot, c = s.toChar := by
  rw [isName, Option.isSome_iff_exists]
  constructor
  · rintro ⟨s, hs⟩
    exact ⟨s, (ofChar?_eq_some_iff c s).1 hs⟩
  · rintro ⟨s, rfl⟩
    exact ⟨s, ofChar?_toChar s⟩

end Slot

namespace Token

/-! ## Digits -/

theorem digitChar_toUInt8 {c : Char} (h : c.isDigit = true) :
    (c.toNat - 48).toUInt8 ≤ 9 ∧ c = (c.toNat - 48).toUInt8.toNat.digitChar := by
  rw [Char.isDigit_iff_toNat] at h
  have hlo : 48 ≤ c.toNat := h.1
  have hhi : c.toNat ≤ 57 := h.2
  have hval : (c.toNat - 48).toUInt8.toNat = c.toNat - 48 := by
    rw [Nat.toUInt8_eq, UInt8.toNat_ofNat']
    omega
  refine ⟨?_, ?_⟩
  · rw [UInt8.le_iff_toNat_le, hval]
    show c.toNat - 48 ≤ 9
    omega
  · rw [hval]
    apply Char.toNat_inj.1
    rw [Nat.toNat_digitChar_of_lt_ten (by omega)]
    omega

theorem digit?_digitChar {d : UInt8} (h : d ≤ 9) : digit? d.toNat.digitChar = some d := by
  have hlt : d.toNat < 10 := Nat.lt_succ_of_le (UInt8.le_iff_toNat_le.1 h)
  have hdigit : d.toNat.digitChar.isDigit = true := by
    rw [Nat.isDigit_digitChar]
    exact decide_eq_true hlt
  rw [digit?, if_pos hdigit, Nat.toNat_digitChar_sub_48_of_lt_ten hlt]
  simp

theorem verb_ofChar?_digitChar {d : UInt8} (h : d ≤ 9) :
    Verb.ofChar? d.toNat.digitChar = none := by
  have hlt : d.toNat < 10 := Nat.lt_succ_of_le (UInt8.le_iff_toNat_le.1 h)
  have hall : ∀ n < 10, Verb.ofChar? n.digitChar = none := by decide
  exact hall d.toNat hlt

/-! ## The characters of a token -/

/-- The character writes the token.  A character that writes no other token
writes `other`. -/
def WrittenBy (c : Char) : Token → Prop
  | verb v => c = v.glyph
  | digit d => d ≤ 9 ∧ c = d.toNat.digitChar
  | letter name => Slot.isName name = true ∧ c = name
  | opening => c = '('
  | closing => c = ')'
  | equals => c = '='
  | other =>
    Verb.ofChar? c = none ∧ digit? c = none ∧ Slot.isName c = false ∧
      c ≠ '(' ∧ c ≠ ')' ∧ c ≠ '='

theorem writtenBy_ofChar (c : Char) : (ofChar c).WrittenBy c := by
  unfold ofChar
  split
  · rename_i v hv
    exact (Verb.ofChar?_eq_some_iff c v).1 hv
  · rename_i hverb
    split
    · rename_i d hd
      unfold digit? at hd
      split at hd
      · rename_i hc
        cases hd
        exact digitChar_toUInt8 hc
      · cases hd
    · rename_i hdigit
      split
      · rename_i hname
        exact ⟨hname, rfl⟩
      · rename_i hname
        split
        · assumption
        · split
          · assumption
          · split
            · assumption
            · exact ⟨hverb, hdigit, by simpa using hname, by assumption, by assumption,
                by assumption⟩

theorem ofChar_of_writtenBy {c : Char} {t : Token} (h : t.WrittenBy c) : ofChar c = t := by
  cases t with
  | verb v =>
    cases h
    simp [ofChar]
  | digit d =>
    obtain ⟨hd, rfl⟩ := h
    simp [ofChar, verb_ofChar?_digitChar hd, digit?_digitChar hd]
  | letter name =>
    obtain ⟨hname, rfl⟩ := h
    obtain ⟨s, rfl⟩ := (Slot.isName_iff c).1 hname
    revert s
    decide
  | opening =>
    cases h
    decide
  | closing =>
    cases h
    decide
  | equals =>
    cases h
    decide
  | other =>
    obtain ⟨hverb, hdigit, hname, hopen, hclose, heq⟩ := h
    simp [ofChar, hverb, hdigit, hname, hopen, hclose, heq]

/-- A character is classified as a token exactly when it writes that token. -/
theorem ofChar_eq_iff (c : Char) (t : Token) : ofChar c = t ↔ t.WrittenBy c := by
  constructor
  · rintro rfl
    exact writtenBy_ofChar c
  · exact ofChar_of_writtenBy

@[simp] theorem ofChar_glyph (v : Verb) : ofChar v.glyph = .verb v :=
  (ofChar_eq_iff _ _).2 rfl

theorem ofChar_digitChar {d : UInt8} (h : d ≤ 9) : ofChar d.toNat.digitChar = .digit d :=
  (ofChar_eq_iff _ _).2 ⟨h, rfl⟩

theorem ofChar_name {name : Char} (h : Slot.isName name = true) : ofChar name = .letter name :=
  (ofChar_eq_iff _ _).2 ⟨h, rfl⟩

/-- No part of the language is blank. -/
theorem isBlank_eq_false_of_ofChar_ne_other {c : Char} (h : ofChar c ≠ .other) :
    Text.isBlank c = false := by
  have hw := writtenBy_ofChar c
  cases ht : ofChar c with
  | verb v =>
    rw [ht] at hw
    cases hw
    cases v <;> decide
  | digit d =>
    rw [ht] at hw
    obtain ⟨hd, rfl⟩ := hw
    have hall : ∀ n < 10, Text.isBlank n.digitChar = false := by decide
    exact hall d.toNat (Nat.lt_succ_of_le (UInt8.le_iff_toNat_le.1 hd))
  | letter name =>
    rw [ht] at hw
    obtain ⟨hname, rfl⟩ := hw
    obtain ⟨s, rfl⟩ := (Slot.isName_iff c).1 hname
    revert s
    decide
  | opening =>
    rw [ht] at hw
    cases hw
    decide
  | closing =>
    rw [ht] at hw
    cases hw
    decide
  | equals =>
    rw [ht] at hw
    cases hw
    decide
  | other => exact absurd ht h

end Token

end ArrayLang
