import ArrayLang.Environment
import ArrayLang.Expr.Basic
import ArrayLang.Verb.Meaning

set_option autoImplicit false

/-!
# Evaluation

Operands are evaluated from right to left.  Evaluation gives a value or a cause
of failure, and in both cases the environment as it is left behind: assignments
made before a failure stay.
-/

namespace ArrayLang

/-- What an evaluation gives, and the environment that it leaves behind. -/
abbrev Evaluation := Except EvalError Value × Environment

/-- Store the value of an evaluation, if it has one, under a name. -/
def Evaluation.store (name : Char) : Evaluation → Evaluation
  | (.ok value, env) =>
    match env.assign name value with
    | .ok next => (.ok value, next)
    | .error e => (.error e, env)
  | (.error e, env) => (.error e, env)

namespace Expr

/-- Evaluate an expression. -/
def eval : Expr → Environment → Evaluation
  | noun value, env => (.ok (.scalar (.ofLength value.toNat)), env)
  | var name, env =>
    match env.get? name with
    | some value => (.ok value, env)
    | none => (.error (.undefinedVariable name), env)
  | group inner, env => inner.eval env
  | monad verb right, env =>
    match right.eval env with
    | (.ok w, next) => (verb.monadic w, next)
    | (.error e, next) => (.error e, next)
  | dyad verb left right, env =>
    match right.eval env with
    | (.ok w, between) =>
      match left.eval between with
      | (.ok a, next) => (verb.dyadic a w, next)
      | (.error e, next) => (.error e, next)
    | (.error e, next) => (.error e, next)
  | assign name value, env => Evaluation.store name (value.eval env)

end Expr

end ArrayLang
