import ArrayLang.Proofs.Applications
import ArrayLang.Proofs.ReadingComplete
import ArrayLang.Proofs.ReadingPrefix
import ArrayLang.Session

set_option autoImplicit false

/-!
# What a line of a session does

A line is blank, or cannot be read, or is an expression that fails, or is one
that has a value; only the last changes the session.  The applications of a
session are those of its lines, also of the lines that fail.
-/

namespace ArrayLang.Session

/-- The four ways in which a line ends. -/
theorem evalLine_cases (session : Session) (line : String) :
    (Text.allBlank line.toList = true ∧ session.evalLine line = (.blank, session)) ∨
    (Text.allBlank line.toList = false ∧ ∃ cause, parse session.limit line = .error cause ∧
      session.evalLine line = (.failure (.parse cause), session)) ∨
    (Text.allBlank line.toList = false ∧ ∃ e cause env, parse session.limit line = .ok e ∧
      e.eval session.env = (.error cause, env) ∧
      session.evalLine line = (.failure (.eval cause), session)) ∨
    (Text.allBlank line.toList = false ∧ ∃ e value env, parse session.limit line = .ok e ∧
      e.eval session.env = (.ok value, env) ∧
      session.evalLine line = (.value value, ⟨env, session.limit⟩)) := by
  unfold evalLine
  cases hblank : Text.allBlank line.toList with
  | true => exact Or.inl ⟨rfl, rfl⟩
  | false =>
    right
    cases hparse : parse session.limit line with
    | error cause => exact Or.inl ⟨rfl, cause, rfl, rfl⟩
    | ok e =>
      right
      rcases heval : e.eval session.env with ⟨cause | value, env⟩
      · exact Or.inl ⟨rfl, e, cause, env, rfl, heval, by simp [heval]⟩
      · exact Or.inr ⟨rfl, e, value, env, rfl, heval, by simp [heval]⟩

/-- A line that can be read has the value of its expression, or fails as it does. -/
theorem evalLine_of_parse {session : Session} {line : String} {e : Expr}
    (h : parse session.limit line = .ok e) :
    session.evalLine line =
      match e.eval session.env with
      | (.ok value, env) => (.value value, ⟨env, session.limit⟩)
      | (.error cause, _) => (.failure (.eval cause), session) := by
  have hblank : Text.allBlank line.toList ≠ true := by
    intro hall
    have hstart := Reading.Reads.nil session.limit .start line.toList 0
      ((Text.allBlank_iff_withoutBlanks _).1 hall)
    rw [parse_eq_of_advance_ok hstart] at h
    cases h
  rcases heval : e.eval session.env with ⟨cause | value, env⟩
  · simp [evalLine, hblank, h, heval]
  · simp [evalLine, hblank, h, heval]

/-- The applications that a line carries out, first to last. -/
def lineApplications (session : Session) (line : String) : List Application :=
  if Text.allBlank line.toList then []
  else
    match parse session.limit line with
    | .error _ => []
    | .ok e => e.applications session.env

/-- The applications that a sequence of lines carries out, first to last. -/
def applications (session : Session) : List String → List Application
  | [] => []
  | line :: rest =>
    session.lineApplications line ++ (session.evalLine line).2.applications rest

/-- The session after a sequence of lines. -/
def after (session : Session) : List String → Session
  | [] => session
  | line :: rest => (session.evalLine line).2.after rest

theorem lineApplications_of_parse {session : Session} {line : String} {e : Expr}
    (hblank : Text.allBlank line.toList = false) (hparse : parse session.limit line = .ok e) :
    session.lineApplications line = e.applications session.env := by
  simp [lineApplications, hblank, hparse]

/-- A property of sessions that every line keeps, under a condition on the
applications of the line, and what a line then says of its answer and its
applications, hold of every line of a run. -/
theorem evalLines_invariant {I : Session → Prop} {A : Answer → Prop} {B C : Application → Prop}
    (hstep : ∀ (session : Session) (line : String), I session →
      (∀ app ∈ session.lineApplications line, B app) →
        I (session.evalLine line).2 ∧ A (session.evalLine line).1 ∧
          ∀ app ∈ session.lineApplications line, C app)
    {session : Session} (hsession : I session) (lines : List String)
    (hrun : ∀ app ∈ session.applications lines, B app) :
    (∀ done ∈ session.evalLines lines, I done.2 ∧ A done.1) ∧
      ∀ app ∈ session.applications lines, C app := by
  induction lines generalizing session with
  | nil => simp [evalLines, applications]
  | cons line rest ih =>
    simp only [applications, List.mem_append] at hrun ⊢
    obtain ⟨hnext, hanswer, hline⟩ := hstep session line hsession fun app h => hrun app (Or.inl h)
    obtain ⟨hrest, happs⟩ := ih hnext fun app h => hrun app (Or.inr h)
    refine ⟨?_, ?_⟩
    · intro done hdone
      rw [evalLines, List.mem_cons] at hdone
      rcases hdone with rfl | hdone
      · exact ⟨hnext, hanswer⟩
      · exact hrest done hdone
    · rintro app (happ | happ)
      · exact hline app happ
      · exact happs app happ

end ArrayLang.Session
