import ArrayLang.Proofs.Session

set_option autoImplicit false

/-!
# Lines without a value leave no trace

A blank line changes nothing, and a line that fails leaves the session as it found
it, whatever it assigned on the way.  So a sequence of lines can be thinned out: with
any of the lines left out that had no value, the others answer as before and the
session ends as before.  Which lines are left out is said by their places, since the
same line may have a value at one place and fail at another.
-/

namespace ArrayLang

/-- The entries at the places that are kept, in order. -/
def keptAt {α : Type} (keep : Nat → Bool) : List α → List α
  | [] => []
  | x :: rest =>
    if keep 0 then x :: keptAt (fun i => keep (i + 1)) rest
    else keptAt (fun i => keep (i + 1)) rest

/-- The value of an answer; a blank line has none, nor has one that failed. -/
def Answer.value? : Answer → Option Value
  | value v => some v
  | blank | failure _ => none

namespace Session

/-- A line without a value leaves the session as it was. -/
theorem evalLine_of_value?_eq_none {session : Session} {line : String}
    (h : (session.evalLine line).1.value? = none) : (session.evalLine line).2 = session := by
  rcases session.evalLine_cases line with ⟨-, hline⟩ | ⟨-, cause, -, hline⟩ |
    ⟨-, e, cause, env, -, -, hline⟩ | ⟨-, e, value, env, -, -, hline⟩
  · rw [hline]
  · rw [hline]
  · rw [hline]
  · rw [hline] at h
    cases h

end Session

/-- Whichever lines without a value are left out of a sequence, every other line gives
the answer that it gave in the full run, with the same session after it, and the last
session is the same. -/
theorem lines_without_value_leave_no_trace (session : Session) (lines : List String)
    (keep : Nat → Bool)
    (h : ∀ i done, (session.evalLines lines)[i]? = some done → keep i = false →
      done.1.value? = none) :
    session.evalLines (keptAt keep lines) = keptAt keep (session.evalLines lines) ∧
      session.after (keptAt keep lines) = session.after lines := by
  induction lines generalizing session keep with
  | nil => exact ⟨rfl, rfl⟩
  | cons line rest ih =>
    obtain ⟨hanswers, hlast⟩ := ih (session.evalLine line).2 (fun i => keep (i + 1))
      fun i done hdone => h (i + 1) done hdone
    cases hkeep : keep 0 with
    | true =>
      simp only [keptAt, hkeep, if_true, Session.evalLines, Session.after, hanswers, hlast,
        and_self]
    | false =>
      -- The line that is left out had no value, so the next one finds the same session.
      have hsame := Session.evalLine_of_value?_eq_none (h 0 _ rfl hkeep)
      rw [hsame] at hanswers hlast
      simp only [keptAt, hkeep, Bool.false_eq_true, if_false, Session.evalLines, Session.after,
        hsame, hanswers, hlast, and_self]

/-- A blank line, and one that fails after it has assigned `a` and `b`, are left out; a
line that fails for want of `b` is kept. -/
theorem lines_without_value_leave_no_trace_past_failure :
    (Session.new 9).evalLines ["a=1", "a", "b"] =
      keptAt (fun i => i != 1 && i != 2)
        ((Session.new 9).evalLines ["a=1", " ", "q,b=a=~3", "a", "b"]) ∧
    (Session.new 9).after ["a=1", "a", "b"] =
      (Session.new 9).after ["a=1", " ", "q,b=a=~3", "a", "b"] := by
  refine lines_without_value_leave_no_trace (.new 9) ["a=1", " ", "q,b=a=~3", "a", "b"]
    (fun i => i != 1 && i != 2) ?_
  intro i done hdone hdropped
  have hplace : i = 1 ∨ i = 2 := by
    simp only [Bool.and_eq_false_iff, bne_eq_false_iff_eq] at hdropped
    exact hdropped
  rcases hplace with rfl | rfl
  · cases hdone
    rfl
  · cases hdone
    rfl

end ArrayLang
