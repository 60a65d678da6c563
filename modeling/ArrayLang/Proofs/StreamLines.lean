import ArrayLang.Text

set_option autoImplicit false

/-!
# Lines of bytes and their texts

A stream is its first line, up to the first line feed, and the stream that follows; so
what holds of a stream without a line feed, and of a line before a stream of which it
holds, holds of every stream.  The text of a line is what its bytes encode.  A byte
below 128 encodes a character alone and is no part of the code of another one, so that
the terminators at the end of a line never decide whether it is UTF-8.
-/

namespace ArrayLang.Text

/-! ## One line after another -/

/-- Induction over the lines of a stream. -/
theorem split_induction {α : Type} [DecidableEq α] (sep : α) {P : List α → Prop}
    (last : ∀ line, sep ∉ line → P line)
    (more : ∀ line rest, sep ∉ line → P rest → P (line ++ sep :: rest)) (stream : List α) :
    P stream := by
  by_cases h : sep ∈ stream
  · obtain ⟨line, rest, rfl, hline⟩ := List.eq_append_cons_of_mem h
    exact more line rest hline (split_induction sep last more rest)
  · exact last stream h
termination_by stream.length
decreasing_by
  subst_vars
  simp only [List.length_append, List.length_cons]
  omega

/-- Up to its first line feed a stream is one line. -/
theorem splitLines_append_feed {line : List UInt8} (h : lineFeed ∉ line) (rest : List UInt8) :
    splitLines (line ++ lineFeed :: rest) = (line ++ [lineFeed]) :: splitLines rest := by
  induction line with
  | nil => simp [consByte]
  | cons b line ih =>
    obtain ⟨hb, hline⟩ := not_or.1 (mt List.mem_cons.2 h)
    rw [List.cons_append, splitLines_cons, ih hline]
    exact if_neg (Ne.symm hb)

/-- Without a line feed it is no more than one line. -/
theorem splitLines_of_not_mem {line : List UInt8} (h : lineFeed ∉ line) (hne : line ≠ []) :
    splitLines line = [line] := by
  induction line with
  | nil => exact absurd rfl hne
  | cons b line ih =>
    obtain ⟨hb, hline⟩ := not_or.1 (mt List.mem_cons.2 h)
    by_cases hnil : line = []
    · subst hnil
      exact if_neg (Ne.symm hb)
    · rw [splitLines_cons, ih hline hnil]
      exact if_neg (Ne.symm hb)

/-- The stream stops between two lines. -/
def EndsLine (bytes : List UInt8) : Prop := bytes = [] ∨ bytes.getLast? = some lineFeed

theorem EndsLine.of_append_feed {line rest : List UInt8}
    (h : EndsLine (line ++ lineFeed :: rest)) : EndsLine rest := by
  cases rest with
  | nil => exact Or.inl rfl
  | cons b rest =>
    rcases h with h | h
    · simp at h
    · right
      simpa using h

/-- Behind a whole number of lines, the lines of what follows are the same as alone. -/
theorem splitLines_append {first : List UInt8} (h : EndsLine first) (second : List UInt8) :
    splitLines (first ++ second) = splitLines first ++ splitLines second := by
  induction first using split_induction lineFeed with
  | last line hline =>
    rcases h with rfl | hlast
    · rfl
    · exact absurd (List.mem_of_getLast? hlast) hline
  | more line rest hline ih =>
    rw [List.append_assoc, List.cons_append, splitLines_append_feed hline,
      splitLines_append_feed hline, ih h.of_append_feed, List.cons_append]

/-! ## UTF-8 -/

/-- The bytes of a text in UTF-8. -/
def utf8 (text : List Char) : List UInt8 := text.flatMap String.utf8EncodeChar

@[simp] theorem utf8_append (s t : List Char) : utf8 (s ++ t) = utf8 s ++ utf8 t := by
  simp [utf8]

@[simp] theorem utf8_singleton (c : Char) : utf8 [c] = String.utf8EncodeChar c := by
  simp [utf8]

theorem toByteArray_utf8 (text : List Char) : (utf8 text).toByteArray = text.utf8Encode := rfl

theorem utf8_injective {s t : List Char} (h : utf8 s = utf8 t) : s = t := by
  have hcode := congrArg (fun bytes => bytes.toByteArray.utf8Decode?) h
  simpa [toByteArray_utf8] using hcode

/-- Bytes are read as a text exactly when they are its UTF-8 form. -/
theorem fromUTF8?_eq_some_iff (bytes : List UInt8) (text : String) :
    String.fromUTF8? ⟨bytes.toArray⟩ = some text ↔ bytes = utf8 text.toList := by
  have hbytes : (⟨bytes.toArray⟩ : ByteArray) = bytes.toByteArray := by
    rw [← List.data_toByteArray]
  have htext : text.toByteArray = (utf8 text.toList).toByteArray := by
    rw [toByteArray_utf8, String.utf8Encode_toList]
  rw [← List.toByteArray_inj, ← htext, hbytes]
  constructor
  · intro h
    unfold String.fromUTF8? at h
    split at h
    · cases h
      rfl
    · cases h
  · intro h
    rw [h]
    exact dif_pos text.isValidUTF8

/-- A byte below 128 that occurs in the code of a character is all of that code: in a
code of several bytes, each has its highest bit set. -/
theorem utf8EncodeChar_eq_of_mem {b : UInt8} {c : Char} (hb : b < 128)
    (h : b ∈ String.utf8EncodeChar c) : String.utf8EncodeChar c = [b] := by
  have hmarked {n k : Nat} (hk : 128 ≤ k) (hn : n + k < 256) : b ≠ UInt8.ofNat (n + k) := by
    rintro rfl
    rw [UInt8.lt_iff_toNat_lt, UInt8.toNat_ofNat_of_lt' hn] at hb
    exact absurd hb (Nat.not_lt.2 (Nat.le_trans hk (Nat.le_add_left k n)))
  unfold String.utf8EncodeChar at h ⊢
  simp only at h ⊢
  split at h
  · rename_i hone
    rw [if_pos hone, List.mem_singleton.1 h]
  · split at h
    · simp only [List.mem_cons, List.not_mem_nil, or_false] at h
      rcases h with h | h
      all_goals exact absurd h (hmarked (by decide) (by omega))
    · split at h
      · simp only [List.mem_cons, List.not_mem_nil, or_false] at h
        rcases h with h | h | h
        all_goals exact absurd h (hmarked (by decide) (by omega))
      · simp only [List.mem_cons, List.not_mem_nil, or_false] at h
        rcases h with h | h | h | h
        all_goals exact absurd h (hmarked (by decide) (by omega))

/-- The byte stands for the character, and for nothing else. -/
structure StandsFor (b : UInt8) (c : Char) : Prop where
  lt : b < 128
  code : String.utf8EncodeChar c = [b]

theorem StandsFor.eq_of_mem {b : UInt8} {c d : Char} (h : StandsFor b c)
    (hd : b ∈ String.utf8EncodeChar d) : d = c := by
  have hsame : utf8 [d] = utf8 [c] := by
    rw [utf8_singleton, utf8_singleton, h.code, utf8EncodeChar_eq_of_mem h.lt hd]
  exact List.singleton_inj.1 (utf8_injective hsame)

theorem StandsFor.not_mem_utf8 {b : UInt8} {c : Char} (h : StandsFor b c) {text : List Char}
    (htext : c ∉ text) : b ∉ utf8 text := by
  intro hb
  obtain ⟨d, hd, hcode⟩ := List.mem_flatMap.1 hb
  exact htext (h.eq_of_mem hcode ▸ hd)

/-- Bytes that are UTF-8 with such a byte after them are so without it. -/
theorem StandsFor.utf8_eq_append {b : UInt8} {c : Char} (h : StandsFor b c) {line : List UInt8}
    {text : List Char} (htext : line ++ [b] = utf8 text) :
    ∃ before, text = before ++ [c] ∧ line = utf8 before := by
  rcases text.eq_nil_or_concat with rfl | ⟨before, d, rfl⟩
  · simp [utf8] at htext
  · rw [List.concat_eq_append, utf8_append, utf8_singleton] at htext
    have hlast : b ∈ String.utf8EncodeChar d := by
      have hne : String.utf8EncodeChar d ≠ [] := String.utf8EncodeChar_ne_nil
      have hends := congrArg List.getLast? htext
      rw [List.getLast?_concat, List.getLast?_append, List.getLast?_eq_some_getLast hne,
        Option.some_or, Option.some_inj] at hends
      rw [hends]
      exact List.getLast_mem hne
    obtain rfl := h.eq_of_mem hlast
    rw [h.code] at htext
    exact ⟨before, List.concat_eq_append, List.append_cancel_right htext⟩

/-! ## Terminators -/

/-- The byte that may stand before a line feed. -/
def carriageReturn : UInt8 := 13

/-- The byte ends lines. -/
def IsEndByte (b : UInt8) : Prop := b = lineFeed ∨ b = carriageReturn

theorem standsFor_lineFeed : StandsFor lineFeed '\n' := ⟨by decide, by decide⟩

theorem standsFor_carriageReturn : StandsFor carriageReturn '\r' := ⟨by decide, by decide⟩

/-- A text up to a line feed is coded apart from what follows. -/
theorem utf8_append_feed (line rest : List Char) :
    utf8 (line ++ '\n' :: rest) = utf8 line ++ lineFeed :: utf8 rest := by
  rw [← List.singleton_append, utf8_append, utf8_append, utf8_singleton, standsFor_lineFeed.code]
  rfl

/-- Every byte that ends lines stands for a character that is cut off. -/
theorem IsEndByte.exists_terminator {b : UInt8} (h : IsEndByte b) :
    ∃ c, StandsFor b c ∧ isTerminator c = true := by
  rcases h with rfl | rfl
  · exact ⟨'\n', standsFor_lineFeed, rfl⟩
  · exact ⟨'\r', standsFor_carriageReturn, rfl⟩

theorem chomp_append_terminator {c : Char} (h : isTerminator c = true) (text : List Char) :
    chomp (String.ofList (text ++ [c])) = chomp (String.ofList text) := by
  simp [chomp, h]

theorem decodeLine?_eq_some_iff (line : List UInt8) (text : String) :
    decodeLine? line = some text ↔
      ∃ chars, line = utf8 chars ∧ chomp (String.ofList chars) = text := by
  simp only [decodeLine?, Option.map_eq_some_iff, fromUTF8?_eq_some_iff]
  constructor
  · rintro ⟨whole, hline, rfl⟩
    exact ⟨whole.toList, hline, by rw [String.ofList_toList]⟩
  · rintro ⟨chars, rfl, rfl⟩
    exact ⟨String.ofList chars, by rw [String.toList_ofList], rfl⟩

/-- A terminator at the end of a line decides neither whether it is UTF-8 nor what its
text is. -/
theorem decodeLine?_append_end {b : UInt8} (h : IsEndByte b) (line : List UInt8) :
    decodeLine? (line ++ [b]) = decodeLine? line := by
  obtain ⟨c, hstands, hterminator⟩ := h.exists_terminator
  apply Option.ext
  intro text
  rw [decodeLine?_eq_some_iff, decodeLine?_eq_some_iff]
  constructor
  · rintro ⟨chars, hchars, rfl⟩
    obtain ⟨before, rfl, hline⟩ := hstands.utf8_eq_append hchars
    exact ⟨before, hline, (chomp_append_terminator hterminator before).symm⟩
  · rintro ⟨chars, rfl, rfl⟩
    refine ⟨chars ++ [c], ?_, chomp_append_terminator hterminator chars⟩
    rw [utf8_append, utf8_singleton, hstands.code]

theorem decodeLine?_append_returns (n : Nat) (line : List UInt8) :
    decodeLine? (line ++ List.replicate n carriageReturn) = decodeLine? line := by
  induction n with
  | zero => simp
  | succ n ih =>
    rw [List.replicate_succ', ← List.append_assoc, decodeLine?_append_end (Or.inr rfl), ih]

/-! ## The texts of a stream -/

/-- The texts of the lines of a stream, in order; none for a line that is not UTF-8. -/
def texts (bytes : List UInt8) : List (Option String) := (splitLines bytes).map decodeLine?

theorem texts_append_feed {line : List UInt8} (h : lineFeed ∉ line) (rest : List UInt8) :
    texts (line ++ lineFeed :: rest) = decodeLine? line :: texts rest := by
  rw [texts, splitLines_append_feed h, List.map_cons, decodeLine?_append_end (Or.inl rfl), texts]

theorem texts_of_not_mem {line : List UInt8} (h : lineFeed ∉ line) (hne : line ≠ []) :
    texts line = [decodeLine? line] := by
  rw [texts, splitLines_of_not_mem h hne, List.map_singleton]

/-- The stream with carriage returns put before its line feeds: `count i` of them where
the byte at place `i` is a line feed. -/
def insertReturns (count : Nat → Nat) : List UInt8 → List UInt8
  | [] => []
  | b :: rest =>
    (if b = lineFeed then List.replicate (count 0) carriageReturn else []) ++
      b :: insertReturns (fun i => count (i + 1)) rest

theorem insertReturns_append (count : Nat → Nat) (first second : List UInt8) :
    insertReturns count (first ++ second) =
      insertReturns count first ++ insertReturns (fun i => count (i + first.length)) second := by
  induction first generalizing count with
  | nil => rfl
  | cons b first ih =>
    simp only [List.cons_append, insertReturns, ih, List.append_assoc, List.length_cons,
      Nat.add_assoc]

theorem insertReturns_of_not_mem {line : List UInt8} (h : lineFeed ∉ line) (count : Nat → Nat) :
    insertReturns count line = line := by
  induction line generalizing count with
  | nil => rfl
  | cons b line ih =>
    obtain ⟨hb, hline⟩ := not_or.1 (mt List.mem_cons.2 h)
    rw [insertReturns, if_neg (Ne.symm hb), ih hline, List.nil_append]

/-- Carriage returns before line feeds do not show in the texts of the lines. -/
theorem texts_insertReturns (count : Nat → Nat) (bytes : List UInt8) :
    texts (insertReturns count bytes) = texts bytes := by
  induction bytes using split_induction lineFeed generalizing count with
  | last line hline => rw [insertReturns_of_not_mem hline]
  | more line rest hline ih =>
    have hreturns : ∀ n, lineFeed ∉ line ++ List.replicate n carriageReturn := by
      intro n
      have hreturn : lineFeed ≠ carriageReturn := by decide
      simp [hline, hreturn]
    rw [insertReturns_append, insertReturns_of_not_mem hline, insertReturns, if_pos rfl,
      ← List.append_assoc, texts_append_feed (hreturns _), texts_append_feed hline, ih,
      decodeLine?_append_returns]

/-- A line feed at the end of a stream adds nothing, or one empty line. -/
theorem texts_append_singleton (bytes : List UInt8) :
    texts (bytes ++ [lineFeed]) = texts bytes ∨
      texts (bytes ++ [lineFeed]) = texts bytes ++ texts [lineFeed] := by
  induction bytes using split_induction lineFeed with
  | last line hline =>
    by_cases hnil : line = []
    · subst hnil
      exact Or.inr rfl
    · left
      rw [texts_append_feed hline, texts_of_not_mem hline hnil]
      rfl
  | more line rest hline ih =>
    rw [List.append_assoc, List.cons_append, texts_append_feed hline, texts_append_feed hline,
      List.cons_append, List.cons_inj_right, List.cons_inj_right]
    exact ih

/-- All lines of a text in UTF-8 are UTF-8. -/
theorem exists_texts_utf8 (text : List Char) :
    ∃ lines : List String, texts (utf8 text) = lines.map some := by
  induction text using split_induction '\n' with
  | last line hline =>
    by_cases hnil : utf8 line = []
    · exact ⟨[], by rw [hnil]; rfl⟩
    · refine ⟨[chomp (String.ofList line)], ?_⟩
      rw [texts_of_not_mem (standsFor_lineFeed.not_mem_utf8 hline) hnil,
        (decodeLine?_eq_some_iff _ _).2 ⟨line, rfl, rfl⟩]
      rfl
  | more line rest hline ih =>
    obtain ⟨lines, hlines⟩ := ih
    refine ⟨chomp (String.ofList line) :: lines, ?_⟩
    rw [utf8_append_feed, texts_append_feed (standsFor_lineFeed.not_mem_utf8 hline),
      (decodeLine?_eq_some_iff _ _).2 ⟨line, rfl, rfl⟩, hlines]
    rfl

end ArrayLang.Text
