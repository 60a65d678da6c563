import ArrayLang.Proofs.ReadingComplete
import ArrayLang.Proofs.Session
import ArrayLang.Proofs.Verbs

set_option autoImplicit false

/-!
# Sessions compute with natural numbers

Numerals are digits, sums that overflow are refused, and lengths become elements
without wrapping as long as they are below `Element.lengthBound`.  So in a session
that begins with no variables, every integer is a natural number and every axis
length is an element, in all variables and values and through every box.  The one
assumption is that every array the session builds has fewer than
`Element.lengthBound` elements.
-/

namespace ArrayLang

namespace Element

/-- The element is a natural number; it is then below the bound for lengths. -/
def Unsigned (n : Element) : Prop := 0 ≤ n.toInt ∧ n.toInt < lengthBound

theorem unsigned_iff (n : Element) : n.Unsigned ↔ 0 ≤ n.toInt := by
  have hlt := n.toInt_lt
  unfold Unsigned lengthBound
  omega

theorem unsigned_ofLength {n : Nat} (h : n < lengthBound) : (ofLength n).Unsigned := by
  rw [unsigned_iff, toInt_ofLength h]
  exact Int.natCast_nonneg n

end Element

namespace Shape

/-- Every axis length is an element. -/
def Unsigned (s : Shape) : Prop := ∀ n ∈ s, n < Element.lengthBound

theorem unsigned_nil : Unsigned [] := List.forall_mem_nil _

end Shape

namespace Value

/-- The integers, if there are any, are natural numbers, and the axis lengths elements. -/
def UnsignedHere : Value → Prop
  | plain shape items => shape.Unsigned ∧ ∀ n ∈ items, n.Unsigned
  | boxed shape _ => shape.Unsigned

/-- All integers are natural numbers and all axis lengths elements, through every
box. -/
def Unsigned (v : Value) : Prop := v.Everywhere UnsignedHere

/-- The elements of an unsigned array. -/
abbrev UnsignedInside (e : Elements) : Prop := e.All Element.Unsigned Unsigned

theorem unsigned_ofElements_iff (s : Shape) (e : Elements) :
    (ofElements s e).Unsigned ↔ s.Unsigned ∧ UnsignedInside e := by
  cases e with
  | plain items => rfl
  | boxed items =>
    rw [Unsigned, ofElements, everywhere_boxed_iff]
    rfl

theorem Unsigned.elements {v : Value} (h : v.Unsigned) :
    v.shape.Unsigned ∧ UnsignedInside v.elements := by
  rwa [← unsigned_ofElements_iff, ofElements_elements]

theorem Unsigned.toInteger? {v : Value} (h : v.Unsigned) {n : Element}
    (hn : v.toInteger? = some n) : n.Unsigned := by
  unfold Value.toInteger? at hn
  split at hn
  · cases hn
    exact h.2 n List.mem_cons_self
  · cases hn

theorem unsigned_scalar {n : Element} (h : n.Unsigned) : (scalar n).Unsigned := by
  refine ⟨Shape.unsigned_nil, ?_⟩
  intro m hm
  rwa [List.mem_singleton.1 hm]

theorem unsigned_vector {items : List Element} (hlength : items.length < Element.lengthBound)
    (h : ∀ n ∈ items, n.Unsigned) : (vector items).Unsigned := by
  refine ⟨?_, h⟩
  intro k hk
  rwa [List.mem_singleton.1 hk]

/-! ## Verbs -/

theorem Unsigned.firstLength_lt {w : Value} (h : w.Unsigned) :
    w.firstLength < Element.lengthBound := by
  have hshape := h.elements.1
  unfold firstLength
  cases hs : w.shape with
  | nil => decide
  | cons n rest => exact hshape n (by rw [hs]; exact List.mem_cons_self)

theorem unsigned_iota {w v : Value} (h : w.iota = .ok v) : v.Unsigned := by
  obtain ⟨n, length, -, hn, rfl⟩ := (iota_eq_ok_iff w v).1 h
  have hlength := Element.lt_lengthBound_of_toInt hn
  apply unsigned_vector
  · simpa using hlength
  · intro m hm
    obtain ⟨i, hi, rfl⟩ := List.mem_map.1 hm
    exact Element.unsigned_ofLength (Nat.lt_trans (List.mem_range.1 hi) hlength)

theorem unsigned_monadic {verb : Verb} {w v : Value} (hw : w.Unsigned)
    (hbuilt : v.count < Element.lengthBound) (h : verb.monadic w = .ok v) : v.Unsigned := by
  cases verb with
  | plus =>
    cases h
    exact hw
  | brace =>
    cases h
    exact unsigned_scalar (Element.unsigned_ofLength hw.firstLength_lt)
  | tilde => exact unsigned_iota h
  | less =>
    cases h
    exact (everywhere_boxed_iff [] [w]).2 ⟨Shape.unsigned_nil, List.forall_mem_singleton.2 hw⟩
  | hash =>
    cases h
    apply unsigned_vector hbuilt
    intro m hm
    obtain ⟨k, hk, rfl⟩ := List.mem_map.1 hm
    exact Element.unsigned_ofLength (hw.elements.1 k hk)
  | comma => cases h

theorem Unsigned.plus {a w v : Value} (ha : a.Unsigned) (hw : w.Unsigned)
    (h : a.plus w = .ok v) : v.Unsigned := by
  obtain ⟨s, xs, ys, sums, rfl, rfl, hsums, rfl⟩ := (plus_eq_ok_iff a w v).1 h
  refine ⟨ha.1, ?_⟩
  intro z hz
  obtain ⟨⟨x, y⟩, hxy, hsum⟩ := exists_of_forall₂_of_mem hsums hz
  have hx := (Element.unsigned_iff x).1 (ha.2 x (List.of_mem_zip hxy).1)
  have hy := (Element.unsigned_iff y).1 (hw.2 y (List.of_mem_zip hxy).2)
  rw [Element.unsigned_iff, Element.toInt_of_add?_eq_some hsum]
  exact Int.add_nonneg hx hy

theorem Unsigned.select {a w v : Value} (hw : w.Unsigned) (h : a.select w = .ok v) :
    v.Unsigned := by
  obtain ⟨n, length, rest, i, cell, -, hshape, -, -, hcell, rfl⟩ := (select_eq_ok_iff a w v).1 h
  obtain ⟨hlengths, hinside⟩ := hw.elements
  rw [unsigned_ofElements_iff]
  refine ⟨?_, hinside.of_slice?_eq_some hcell⟩
  intro k hk
  exact hlengths k (by rw [hshape]; exact List.mem_cons_of_mem length hk)

theorem Unsigned.reshape {a w v : Value} (hw : w.Unsigned) (h : a.reshape w = .ok v) :
    v.Unsigned := by
  obtain ⟨s, lengths, shape, elements, -, hlengths, -, htile, rfl⟩ :=
    (reshape_eq_ok_iff a w v).1 h
  rw [unsigned_ofElements_iff]
  refine ⟨?_, hw.elements.2.of_tile?_eq_some htile⟩
  intro k hk
  obtain ⟨n, -, hn⟩ := exists_of_forall₂_of_mem hlengths hk
  exact Element.lt_lengthBound_of_toInt hn

theorem Unsigned.catenate {a w v : Value} (ha : a.Unsigned) (hw : w.Unsigned)
    (hbuilt : v.count < Element.lengthBound) (h : a.catenate w = .ok v) : v.Unsigned := by
  obtain ⟨elements, happend, rfl⟩ := (catenate_eq_ok_iff a w v).1 h
  rw [← length_elements, elements_ofElements] at hbuilt
  rw [unsigned_ofElements_iff]
  refine ⟨?_, ha.elements.2.of_append?_eq_some hw.elements.2 happend⟩
  intro k hk
  rwa [List.mem_singleton.1 hk]

theorem unsigned_dyadic {verb : Verb} {a w v : Value} (ha : a.Unsigned) (hw : w.Unsigned)
    (hbuilt : v.count < Element.lengthBound) (h : verb.dyadic a w = .ok v) : v.Unsigned := by
  cases verb with
  | plus => exact ha.plus hw h
  | brace => exact hw.select h
  | hash => exact hw.reshape h
  | comma => exact ha.catenate hw hbuilt h
  | tilde => cases h
  | less => cases h

end Value

namespace Application

theorem unsigned_result {app : Application} (hover : app.Over Value.Unsigned)
    (hbuilt : app.built < Element.lengthBound) {v : Value} (h : app.result = .ok v) :
    v.Unsigned := by
  rw [built_of_result h] at hbuilt
  cases app with
  | monadic verb w => exact Value.unsigned_monadic hover hbuilt h
  | dyadic verb a w => exact Value.unsigned_dyadic hover.1 hover.2 hbuilt h

/-- Applied to natural numbers, no verb finds a negative length. -/
theorem structural_error {app : Application} (hover : app.Over Value.Unsigned) {e : EvalError}
    (h : app.result = .error e) : e.isStructural = true := by
  rcases result_error h with hstructural | ⟨w, n, rfl, hn, hneg, -⟩ |
    ⟨s, lengths, w, n, rfl, hn, hneg, -⟩
  · exact hstructural
  · have hunsigned := (Value.Unsigned.toInteger? hover hn).1
    omega
  · have hunsigned := (hover.1.2 n hn).1
    omega

end Application

/-! ## Lines and sessions -/

/-- The value of the answer is unsigned; its cause of failure is a variable that
holds nothing or lies in the operands of a verb, and is no negative length. -/
def Answer.Unsigned : Answer → Prop
  | blank => True
  | value v => v.Unsigned
  | failure (.parse _) => True
  | failure (.eval cause) =>
    (∃ name, Slot.isName name = true ∧ cause = .undefinedVariable name) ∨
      cause.isStructural = true

namespace Session

theorem eval_unsigned {session : Session} (hsession : session.env.All Value.Unsigned) {e : Expr}
    (hbuilt : ∀ app ∈ e.applications session.env, app.built < Element.lengthBound) :
    (e.eval session.env).All Value.Unsigned ∧
      ∀ app ∈ e.applications session.env, app.Over Value.Unsigned := by
  refine e.eval_invariant ?_ hsession ?_
  · intro d
    refine Value.unsigned_scalar (Element.unsigned_ofLength ?_)
    exact Nat.lt_trans d.toNat_lt (by decide)
  · intro app happ hover v hresult
    exact Application.unsigned_result hover (hbuilt app happ) hresult

/-- One line keeps the variables unsigned, answers so, and applies verbs to
unsigned operands only. -/
theorem evalLine_unsigned {session : Session} (hsession : session.env.All Value.Unsigned)
    (line : String)
    (hbuilt : ∀ app ∈ session.lineApplications line, app.built < Element.lengthBound) :
    (session.evalLine line).2.env.All Value.Unsigned ∧ (session.evalLine line).1.Unsigned ∧
      ∀ app ∈ session.lineApplications line, app.Over Value.Unsigned := by
  rcases session.evalLine_cases line with ⟨hblank, h⟩ | ⟨hblank, cause, hparse, h⟩ |
    ⟨hblank, e, cause, env, hparse, heval, h⟩ | ⟨hblank, e, value, env, hparse, heval, h⟩
  · rw [h]
    exact ⟨hsession, trivial, by simp [lineApplications, hblank]⟩
  · rw [h]
    exact ⟨hsession, trivial, by simp [lineApplications, hblank, hparse]⟩
  · rw [lineApplications_of_parse hblank hparse] at hbuilt ⊢
    obtain ⟨-, hover⟩ := eval_unsigned hsession hbuilt
    rw [h]
    refine ⟨hsession, ?_, hover⟩
    have hcanonical := (parse_sound hparse).1.canonical
    have hfail : (e.eval session.env).1 = .error cause := by rw [heval]
    rcases hcanonical.eval_error_origin hfail with hname | ⟨app, happ, hresult⟩
    · exact Or.inl hname
    · exact Or.inr (Application.structural_error (hover app happ) hresult)
  · rw [lineApplications_of_parse hblank hparse] at hbuilt ⊢
    obtain ⟨hall, hover⟩ := eval_unsigned hsession hbuilt
    rw [heval] at hall
    rw [h]
    exact ⟨hall.env, hall.value value rfl, hover⟩

end Session

/-- In a session begun without variables, whatever its lines, every variable and
every value holds natural numbers and axis lengths below the bound only; no line
fails with a negative length or an invalid name; and the lengths that `{` and `#`
turn into elements are kept.  It is assumed that no array built on the way has
`Element.lengthBound` elements. -/
theorem session_unsigned (limit : Nat) (lines : List String)
    (hbuilt : ∀ app ∈ (Session.new limit).applications lines,
      app.built < Element.lengthBound) :
    (∀ done ∈ (Session.new limit).evalLines lines,
      done.2.env.All Value.Unsigned ∧
      (∀ v, done.1 = .value v → v.Unsigned) ∧
      (∀ verb n, done.1 ≠ .failure (.eval (.negativeLength verb n))) ∧
      (∀ name, done.1 ≠ .failure (.eval (.invalidVariable name)))) ∧
    (∀ w, .monadic .brace w ∈ (Session.new limit).applications lines →
      (Element.ofLength w.firstLength).toInt = w.firstLength) ∧
    (∀ w, .monadic .hash w ∈ (Session.new limit).applications lines →
      ∀ n ∈ w.shape, (Element.ofLength n).toInt = n) := by
  have hempty : (Session.new limit).env.All Value.Unsigned := Environment.all_empty _
  obtain ⟨hsteps, hover⟩ := Session.evalLines_invariant
    (fun session line hsession => Session.evalLine_unsigned hsession line) hempty lines hbuilt
  refine ⟨?_, ?_, ?_⟩
  · rintro ⟨answer, next⟩ hdone
    obtain ⟨hnext, hanswer⟩ := hsteps _ hdone
    refine ⟨hnext, ?_, ?_, ?_⟩
    · rintro v rfl
      exact hanswer
    · rintro verb n rfl
      rcases hanswer with ⟨name, -, hcause⟩ | hstructural
      · cases hcause
      · cases hstructural
    · rintro name rfl
      rcases hanswer with ⟨name, -, hcause⟩ | hstructural
      · cases hcause
      · cases hstructural
  · intro w hw
    exact Element.toInt_ofLength (Value.Unsigned.firstLength_lt (hover _ hw))
  · intro w hw n hn
    exact Element.toInt_ofLength ((Value.Unsigned.elements (hover _ hw)).1 n hn)

/-- A line that fails after an assignment, and one that boxes and reshapes. -/
theorem session_unsigned_past_failure :
    (∀ app ∈ (Session.new 9).applications ["a=~3", "q,a=1", "#b=<(2,2)#a"],
      app.built < Element.lengthBound) ∧
    ∀ done ∈ (Session.new 9).evalLines ["a=~3", "q,a=1", "#b=<(2,2)#a"],
      done.2.env.All Value.Unsigned := by
  have hbuilt : ∀ app ∈ (Session.new 9).applications ["a=~3", "q,a=1", "#b=<(2,2)#a"],
      app.built < Element.lengthBound := by decide
  exact ⟨hbuilt, fun done hdone => ((session_unsigned 9 _ hbuilt).1 done hdone).1⟩

end ArrayLang
