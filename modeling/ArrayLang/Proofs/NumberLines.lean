import ArrayLang.Value.Render

set_option autoImplicit false

/-!
# Lines of numbers

A line of numbers is a row of words, each followed by a space, ended by a line
feed.  Words are made of digits and minus signs, so both marks are unmistakable:
from a text that begins with such a line, the words and what follows the line
can be told.
-/

namespace ArrayLang

/-! ## Words -/

/-- A character of a number. -/
def IsNumeral (c : Char) : Prop := c.isDigit = true ∨ c = '-'

theorem IsNumeral.ne {c d : Char} (hc : IsNumeral c) (hdigit : d.isDigit = false)
    (hminus : d ≠ '-') : c ≠ d := by
  rintro rfl
  rcases hc with h | h
  · rw [h] at hdigit
    cases hdigit
  · exact hminus h

/-- At least one character, and characters of numbers only. -/
structure IsNumber (word : List Char) : Prop where
  ne_nil : word ≠ []
  numerals : ∀ c ∈ word, IsNumeral c

theorem IsNumber.not_mem {word : List Char} (h : IsNumber word) {d : Char}
    (hdigit : d.isDigit = false) (hminus : d ≠ '-') : d ∉ word := by
  intro hd
  exact (h.numerals d hd).ne hdigit hminus rfl

theorem isDigit_of_mem_repr {n : Nat} {c : Char} (h : c ∈ n.repr.toList) : c.isDigit = true := by
  rw [Nat.toList_repr] at h
  exact Nat.isDigit_of_mem_toDigits (by decide) (by decide) h

theorem isNumber_repr (n : Nat) : IsNumber n.repr.toList := by
  refine ⟨?_, fun c hc => Or.inl (isDigit_of_mem_repr hc)⟩
  rw [Nat.toList_repr]
  exact Nat.toDigits_ne_nil

theorem repr_injective {m n : Nat} (h : m.repr.toList = n.repr.toList) : m = n := by
  rw [Nat.toList_repr, Nat.toList_repr] at h
  rw [← @Nat.ofDigitChars_ten_toDigits m, h, Nat.ofDigitChars_ten_toDigits]

namespace Element

theorem toList_text (x : Element) :
    x.text.toList =
      if 0 ≤ x.toInt then x.toInt.toNat.repr.toList
      else '-' :: (-x.toInt).toNat.repr.toList := by
  rw [text, Int.repr_eq_if]
  split
  · rfl
  · simp

theorem isNumber_text (x : Element) : IsNumber x.text.toList := by
  rw [toList_text]
  split
  · exact isNumber_repr _
  · refine ⟨List.cons_ne_nil _ _, ?_⟩
    intro c hc
    rcases List.mem_cons.1 hc with rfl | hc
    · exact Or.inr rfl
    · exact (isNumber_repr _).numerals c hc

/-- Only a negative number begins with a minus sign. -/
theorem text_injective {x y : Element} (h : x.text.toList = y.text.toList) : x = y := by
  have hsign (n : Nat) (word : List Char) : n.repr.toList ≠ '-' :: word := by
    intro heq
    have hminus : '-' ∈ n.repr.toList := by
      rw [heq]
      exact List.mem_cons_self
    cases isDigit_of_mem_repr hminus
  apply Int64.toInt_inj.1
  rw [toList_text, toList_text] at h
  split at h
  · split at h
    · have hnat := repr_injective h
      omega
    · exact absurd h (hsign _ _)
  · split at h
    · exact absurd h.symm (hsign _ _)
    · have hnat := repr_injective (List.cons.inj h).2
      omega

end Element

/-! ## Lines -/

/-- The words, each followed by a space, and a line feed. -/
def numberLine (words : List (List Char)) : List Char :=
  words.flatMap (fun word => word ++ [' ']) ++ ['\n']

theorem numberLine_cons (word : List Char) (words : List (List Char)) :
    numberLine (word :: words) = word ++ ' ' :: numberLine words := by
  simp [numberLine]

theorem append_cons_injective {α : Type} {sep : α} {s t u v : List α} (hs : sep ∉ s)
    (ht : sep ∉ t) (h : s ++ sep :: u = t ++ sep :: v) : s = t ∧ u = v := by
  induction s generalizing t with
  | nil =>
    cases t with
    | nil => exact ⟨rfl, (List.cons.inj h).2⟩
    | cons b t => exact absurd ((List.cons.inj h).1 ▸ List.mem_cons_self) ht
  | cons a s ih =>
    cases t with
    | nil => exact absurd ((List.cons.inj h).1 ▸ List.mem_cons_self) hs
    | cons b t =>
      obtain ⟨rfl, htail⟩ := List.cons.inj h
      obtain ⟨rfl, huv⟩ := ih (fun hm => hs (List.mem_cons_of_mem a hm))
        (fun hm => ht (List.mem_cons_of_mem a hm)) htail
      exact ⟨rfl, huv⟩

theorem numberLine_head {word : List Char} (h : IsNumber word) (words : List (List Char)) :
    ∃ c rest, numberLine (word :: words) = c :: rest ∧ IsNumeral c := by
  obtain ⟨hne, hnumerals⟩ := h
  cases word with
  | nil => exact absurd rfl hne
  | cons c word =>
    refine ⟨c, word ++ ' ' :: numberLine words, ?_, hnumerals c List.mem_cons_self⟩
    rw [numberLine_cons]
    rfl

/-- A line of numbers at the beginning of a text is the only one there. -/
theorem numberLine_injective {words others : List (List Char)} {r s : List Char}
    (hwords : ∀ word ∈ words, IsNumber word) (hothers : ∀ word ∈ others, IsNumber word)
    (h : numberLine words ++ r = numberLine others ++ s) : words = others ∧ r = s := by
  have hfeed {word : List Char} (hword : IsNumber word) (tail : List (List Char))
      {t u : List Char} : '\n' :: t ≠ numberLine (word :: tail) ++ u := by
    intro heq
    obtain ⟨c, rest, hline, hc⟩ := numberLine_head hword tail
    rw [hline] at heq
    exact hc.ne (by decide) (by decide) (List.cons.inj heq).1.symm
  induction words generalizing others with
  | nil =>
    cases others with
    | nil => exact ⟨rfl, (List.cons.inj h).2⟩
    | cons other others => exact absurd h (hfeed (hothers other List.mem_cons_self) others)
  | cons word words ih =>
    have hword := hwords word List.mem_cons_self
    cases others with
    | nil => exact absurd h.symm (hfeed hword words)
    | cons other others =>
      have hother := hothers other List.mem_cons_self
      rw [numberLine_cons, numberLine_cons, List.append_assoc, List.append_assoc] at h
      obtain ⟨rfl, hrest⟩ := append_cons_injective (hword.not_mem (by decide) (by decide))
        (hother.not_mem (by decide) (by decide)) h
      obtain ⟨rfl, hrs⟩ := ih (fun w hw => hwords w (List.mem_cons_of_mem _ hw))
        (fun w hw => hothers w (List.mem_cons_of_mem _ hw)) hrest
      exact ⟨rfl, hrs⟩

end ArrayLang
