import ArrayLang.Eval
import ArrayLang.Proofs.Mentions

set_option autoImplicit false

/-!
# How an evaluation uses the variables

An evaluation asks for the values of variables and hands in values to be stored; it
does not see the environment otherwise.  A *dialogue* is an evaluation reduced to
these requests: what it does next depends on the answers alone.  Carried out against
an environment, the dialogue of an expression is its evaluation, and the requests
made on the way are its accesses.  They account for the environment in full: what a
reading finds, and what is there at the end, is what was stored last.
-/

namespace ArrayLang

/-- A request to an environment, with what came of it. -/
inductive Access where
  /-- a variable is read; it holds a value, or none -/
  | read (name : Char) (found : Option Value)
  /-- a value is stored in a variable -/
  | write (name : Char) (value : Value)
  deriving DecidableEq, Repr

namespace Access

/-- The letter that asks for the access. -/
def mention : Access → Mention
  | read name _ => .read name
  | write name _ => .write name

/-- The value that the access stores under a name. -/
def stored? (name : Char) : Access → Option Value
  | read _ _ => none
  | write other value => if name = other then some value else none

/-- The value stored by the leftmost assignment to a name, where the accesses stand
in the order of a text. -/
def leftmost? (name : Char) (accesses : List Access) : Option Value :=
  accesses.findSome? (stored? name)

theorem leftmost?_append_read (name other : Char) (found : Option Value)
    (accesses : List Access) :
    leftmost? name (accesses ++ [.read other found]) = leftmost? name accesses := by
  simp [leftmost?, List.findSome?_append, stored?]

/-- An assignment to the right of all others is seen where nothing else is stored. -/
theorem leftmost?_append_write (name other : Char) (value : Value) (accesses : List Access)
    (before : Option Value) :
    (leftmost? name (accesses ++ [.write other value])).or before =
      (leftmost? name accesses).or (if name = other then some value else before) := by
  by_cases h : name = other <;> simp [leftmost?, List.findSome?_append, stored?, h]

end Access

/-! ## Dialogues -/

/-- An evaluation as a sequence of requests. -/
inductive Dialogue where
  /-- no request is left -/
  | done (outcome : Except EvalError Value)
  /-- a variable is read, and the rest depends on what it holds -/
  | read (name : Char) (next : Option Value → Dialogue)
  /-- a value is stored in a variable; a name that is none ends the dialogue -/
  | write (name : Char) (value : Value) (next : Dialogue)

namespace Dialogue

/-- Go on with the value at which a dialogue arrives; its failure is final. -/
def bind : Dialogue → (Value → Dialogue) → Dialogue
  | done (.ok value), following => following value
  | done (.error cause), _ => done (.error cause)
  | read name next, following => read name fun found => (next found).bind following
  | write name value next, following => write name value (next.bind following)

/-- Carry a dialogue out against an environment. -/
def run : Dialogue → Environment → Evaluation
  | done outcome, env => (outcome, env)
  | read name next, env => (next (env.get? name)).run env
  | write name value next, env =>
    match env.assign name value with
    | .ok after => next.run after
    | .error cause => (.error cause, env)

/-- The accesses of a dialogue to an environment, first to last. -/
def accesses : Dialogue → Environment → List Access
  | done _, _ => []
  | read name next, env => .read name (env.get? name) :: (next (env.get? name)).accesses env
  | write name value next, env =>
    match env.assign name value with
    | .ok after => .write name value :: next.accesses after
    | .error _ => []

theorem run_bind (d : Dialogue) (following : Value → Dialogue) (env : Environment) :
    (d.bind following).run env =
      match d.run env with
      | (.ok value, after) => (following value).run after
      | (.error cause, after) => (.error cause, after) := by
  induction d generalizing env with
  | done outcome => cases outcome <;> rfl
  | read name next ih => exact ih (env.get? name) env
  | write name value next ih =>
    simp only [bind, run]
    split
    · rename_i after hassign
      exact ih after
    · rfl

theorem accesses_bind (d : Dialogue) (following : Value → Dialogue) (env : Environment) :
    (d.bind following).accesses env =
      d.accesses env ++
        match d.run env with
        | (.ok value, after) => (following value).accesses after
        | (.error _, _) => [] := by
  induction d generalizing env with
  | done outcome => cases outcome <;> rfl
  | read name next ih =>
    simp only [bind, accesses, run, List.cons_append]
    rw [ih (env.get? name) env]
  | write name value next ih =>
    simp only [bind, accesses, run]
    split
    · rename_i after hassign
      rw [List.cons_append, ih after]
    · rfl

/-! ### What is read and what remains -/

/-- After a dialogue, a name holds what was stored under it last. -/
theorem get?_run (d : Dialogue) (env : Environment) (name : Char) :
    (d.run env).2.get? name =
      (Access.leftmost? name (d.accesses env).reverse).or (env.get? name) := by
  induction d generalizing env with
  | done outcome => simp [run, accesses, Access.leftmost?]
  | read other next ih =>
    rw [run, accesses, List.reverse_cons, Access.leftmost?_append_read]
    exact ih (env.get? other) env
  | write other value next ih =>
    rw [run, accesses]
    split
    · rename_i after hassign
      rw [List.reverse_cons, Access.leftmost?_append_write, ih after,
        Environment.get?_of_assign hassign]
    · simp [Access.leftmost?]

/-- A reading finds what was stored under its name last, or else what was there at
the beginning. -/
theorem found_of_accesses (d : Dialogue) (env : Environment) {before after : List Access}
    {name : Char} {found : Option Value}
    (h : d.accesses env = before ++ .read name found :: after) :
    found = (Access.leftmost? name before.reverse).or (env.get? name) := by
  induction d generalizing env before with
  | done outcome => simp [accesses] at h
  | read other next ih =>
    rw [accesses] at h
    cases before with
    | nil =>
      obtain ⟨hread, -⟩ := List.cons.inj h
      cases hread
      simp [Access.leftmost?]
    | cons first before =>
      obtain ⟨rfl, hrest⟩ := List.cons.inj h
      rw [List.reverse_cons, Access.leftmost?_append_read]
      exact ih (env.get? other) env hrest
  | write other value next ih =>
    rw [accesses] at h
    split at h
    · rename_i next' hassign
      cases before with
      | nil =>
        obtain ⟨hread, -⟩ := List.cons.inj h
        cases hread
      | cons first before =>
        obtain ⟨rfl, hrest⟩ := List.cons.inj h
        rw [List.reverse_cons, Access.leftmost?_append_write,
          ← Environment.get?_of_assign hassign]
        exact ih next' hrest
    · simp at h

end Dialogue

/-! ## Expressions as dialogues -/

namespace Expr

/-- The requests that evaluating an expression makes. -/
def dialogue : Expr → Dialogue
  | noun value => .done (.ok (.scalar (.ofLength value.toNat)))
  | var name =>
    .read name fun
      | some value => .done (.ok value)
      | none => .done (.error (.undefinedVariable name))
  | group inner => inner.dialogue
  | monad verb right => right.dialogue.bind fun w => .done (verb.monadic w)
  | dyad verb left right =>
    right.dialogue.bind fun w => left.dialogue.bind fun a => .done (verb.dyadic a w)
  | assign name value => value.dialogue.bind fun v => .write name v (.done (.ok v))

/-- Evaluation is the dialogue, carried out. -/
theorem run_dialogue (e : Expr) (env : Environment) : e.dialogue.run env = e.eval env := by
  induction e generalizing env with
  | noun value => rfl
  | var name =>
    rw [dialogue, Dialogue.run, eval]
    cases env.get? name <;> rfl
  | group inner ih => exact ih env
  | monad verb right ih =>
    rw [dialogue, Dialogue.run_bind, ih, eval]
    rcases right.eval env with ⟨_ | w, after⟩ <;> rfl
  | dyad verb left right ihLeft ihRight =>
    rw [dialogue, Dialogue.run_bind, ihRight, eval]
    rcases right.eval env with ⟨_ | w, between⟩
    · rfl
    · simp only [Dialogue.run_bind, ihLeft]
      rcases left.eval between with ⟨_ | a, after⟩ <;> rfl
  | assign name value ih =>
    rw [dialogue, Dialogue.run_bind, ih, eval]
    rcases value.eval env with ⟨_ | v, after⟩
    · rfl
    · show (Dialogue.write name v (.done (.ok v))).run after = Evaluation.store name (.ok v, after)
      rw [Dialogue.run, Evaluation.store]
      cases after.assign name v <;> rfl

/-- The accesses of an evaluation, first to last. -/
def accesses (e : Expr) (env : Environment) : List Access := e.dialogue.accesses env

theorem accesses_monad (verb : Verb) (right : Expr) (env : Environment) :
    (monad verb right).accesses env = right.accesses env := by
  rw [accesses, dialogue, Dialogue.accesses_bind]
  rcases right.dialogue.run env with ⟨_ | w, after⟩ <;> simp [Dialogue.accesses, accesses]

theorem accesses_dyad (verb : Verb) (left right : Expr) (env : Environment) :
    (dyad verb left right).accesses env =
      right.accesses env ++
        match right.eval env with
        | (.ok _, between) => left.accesses between
        | (.error _, _) => [] := by
  rw [accesses, dialogue, Dialogue.accesses_bind, run_dialogue]
  rcases right.eval env with ⟨_ | w, between⟩
  · rfl
  · simp only [Dialogue.accesses_bind]
    rcases left.dialogue.run between with ⟨_ | a, after⟩ <;> simp [Dialogue.accesses, accesses]

theorem accesses_assign {name : Char} (hname : Slot.isName name = true) (value : Expr)
    (env : Environment) :
    (assign name value).accesses env =
      value.accesses env ++
        match value.eval env with
        | (.ok v, _) => [.write name v]
        | (.error _, _) => [] := by
  rw [accesses, dialogue, Dialogue.accesses_bind, run_dialogue]
  rcases value.eval env with ⟨_ | v, after⟩
  · rfl
  · obtain ⟨next, hnext⟩ := Environment.exists_assign hname after v
    simp [Dialogue.accesses, hnext, accesses]

end Expr

end ArrayLang
