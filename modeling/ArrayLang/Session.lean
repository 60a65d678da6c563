import ArrayLang.Eval
import ArrayLang.Expr.Reading

set_option autoImplicit false

/-!
# Sessions

A session evaluates one line after another.  A line that fails leaves the
variables as they were before it, whatever it assigned before failing.
-/

namespace ArrayLang

/-- Why a line has no value. -/
inductive LineError where
  /-- it is no expression -/
  | parse (cause : ParseError)
  /-- it is an expression without a value -/
  | eval (cause : EvalError)
  deriving DecidableEq, Repr

namespace LineError

/-- The cause in words. -/
def message : LineError → String
  | parse cause => "parse error: " ++ cause.message
  | eval cause => cause.message

end LineError

/-- What a line comes to. -/
inductive Answer where
  /-- the line holds blanks only -/
  | blank
  /-- the line has a value -/
  | value (value : Value)
  /-- the line has no value -/
  | failure (cause : LineError)
  deriving DecidableEq, Repr

/-- The variables, and the nesting limit for the lines to come. -/
structure Session where
  env : Environment
  limit : Nat
  deriving DecidableEq, Repr

namespace Session

/-- A session in which no variable holds a value. -/
def new (limit : Nat) : Session := ⟨.empty, limit⟩

instance : Inhabited Session := ⟨new defaultLimit⟩

/-- Evaluate a line. -/
def evalLine (session : Session) (line : String) : Answer × Session :=
  if Text.allBlank line.toList then (.blank, session)
  else
    match ArrayLang.parse session.limit line with
    | .error cause => (.failure (.parse cause), session)
    | .ok expr =>
      match expr.eval session.env with
      | (.ok value, env) => (.value value, ⟨env, session.limit⟩)
      | (.error cause, _) => (.failure (.eval cause), session)

/-- Evaluate lines in order: each answer, with the session after its line. -/
def evalLines (session : Session) : List String → List (Answer × Session)
  | [] => []
  | line :: rest =>
    let (answer, next) := session.evalLine line
    (answer, next) :: next.evalLines rest

/-- The limit is that of the session as it was begun. -/
@[simp] theorem limit_evalLine (session : Session) (line : String) :
    (session.evalLine line).2.limit = session.limit := by
  unfold evalLine
  split
  · rfl
  · split
    · rfl
    · split <;> rfl

end Session

end ArrayLang
