import ArrayLang.Eval
import ArrayLang.Expr.Basic
import ArrayLang.Proofs.Verbs

set_option autoImplicit false

/-!
# What an evaluation does

An evaluation applies verbs to values and stores values in variables, and does
nothing else.  The applications it carries out are listed here in the order in
which they happen, also those before a failure.  A property of values that every
one of them hands on from its operands to its result holds of all values that
the evaluation gives or leaves behind, and an evaluation fails only where one of
its applications or one of its variables does.
-/

namespace ArrayLang

/-- A verb and the values that it is applied to. -/
inductive Application where
  /-- to the right operand alone -/
  | monadic (verb : Verb) (w : Value)
  /-- to a left and a right operand -/
  | dyadic (verb : Verb) (a w : Value)
  deriving DecidableEq, Repr

namespace Application

/-- The verb applied. -/
def verb : Application → Verb
  | monadic verb _ => verb
  | dyadic verb _ _ => verb

/-- What the application gives. -/
def result : Application → Except EvalError Value
  | monadic verb w => verb.monadic w
  | dyadic verb a w => verb.dyadic a w

/-- The number of elements of the array that the application builds; none if it
fails. -/
def built (app : Application) : Nat :=
  match app.result with
  | .ok v => v.count
  | .error _ => 0

/-- Every operand has the property. -/
def Over (P : Value → Prop) : Application → Prop
  | monadic _ w => P w
  | dyadic _ a w => P a ∧ P w

theorem built_of_result {app : Application} {v : Value} (h : app.result = .ok v) :
    app.built = v.count := by
  rw [built, h]

/-- A verb fails for the kind, shape or size of its operands, or for a negative length
among the integers that it takes for lengths; never for a variable. -/
theorem result_error {app : Application} {cause : EvalError} (h : app.result = .error cause) :
    cause.isStructural = true ∨
    (∃ w n, app = .monadic .tilde w ∧ w.toInteger? = some n ∧ n.toInt < 0 ∧
      cause = .negativeLength .tilde n) ∨
    (∃ s lengths w n, app = .dyadic .hash (.plain s lengths) w ∧ n ∈ lengths ∧ n.toInt < 0 ∧
      cause = .negativeLength .hash n) := by
  cases app with
  | monadic verb w =>
    cases verb with
    | tilde =>
      rcases Value.iota_error h with hstructural | ⟨n, hcause, hn, hneg⟩
      · exact Or.inl hstructural
      · exact Or.inr (Or.inl ⟨w, n, rfl, hn, hneg, hcause⟩)
    | comma =>
      cases h
      exact Or.inl rfl
    | plus | brace | less | hash => cases h
  | dyadic verb a w =>
    cases verb with
    | plus => exact Or.inl (Value.plus_error h)
    | brace => exact Or.inl (Value.select_error h)
    | hash =>
      rcases Value.reshape_error h with hstructural | ⟨s, lengths, n, hcause, rfl, hn, hneg⟩
      · exact Or.inl hstructural
      · exact Or.inr (Or.inr ⟨s, lengths, w, n, rfl, hn, hneg, hcause⟩)
    | comma => exact Or.inl (Value.catenate_error h)
    | tilde | less =>
      cases h
      exact Or.inl rfl

end Application

namespace Expr

/-- The applications that an evaluation carries out, first to last. -/
def applications : Expr → Environment → List Application
  | noun _, _ | var _, _ => []
  | group inner, env => inner.applications env
  | monad verb right, env =>
    right.applications env ++
      match right.eval env with
      | (.ok w, _) => [.monadic verb w]
      | (.error _, _) => []
  | dyad verb left right, env =>
    right.applications env ++
      match right.eval env with
      | (.ok w, between) =>
        left.applications between ++
          match left.eval between with
          | (.ok a, _) => [.dyadic verb a w]
          | (.error _, _) => []
      | (.error _, _) => []
  | assign _ value, env => value.applications env

end Expr

namespace Environment

/-- Every stored value has the property. -/
def All (P : Value → Prop) (env : Environment) : Prop :=
  ∀ (name : Char) (v : Value), env.get? name = some v → P v

theorem all_empty (P : Value → Prop) : empty.All P := by
  intro name v h
  rw [get?_empty] at h
  cases h

theorem All.assign {P : Value → Prop} {env next : Environment} {name : Char} {value : Value}
    (henv : env.All P) (hvalue : P value) (h : env.assign name value = .ok next) :
    next.All P := by
  intro other v hv
  rw [get?_of_assign h] at hv
  split at hv
  · cases hv
    exact hvalue
  · exact henv other v hv

end Environment

/-- The value of an evaluation, if it has one, and all values that it leaves
behind have the property. -/
structure Evaluation.All (P : Value → Prop) (evaluation : Evaluation) : Prop where
  value : ∀ v, evaluation.1 = .ok v → P v
  env : evaluation.2.All P

theorem Evaluation.all_error {P : Value → Prop} {env : Environment} (henv : env.All P)
    (e : EvalError) : Evaluation.All P (.error e, env) := by
  refine ⟨?_, henv⟩
  intro v hv
  cases hv

theorem Evaluation.all_ok {P : Value → Prop} {env : Environment} (henv : env.All P)
    {value : Value} (hvalue : P value) : Evaluation.All P (.ok value, env) := by
  refine ⟨?_, henv⟩
  intro v hv
  cases hv
  exact hvalue

theorem Evaluation.All.store {P : Value → Prop} {evaluation : Evaluation}
    (h : evaluation.All P) (name : Char) : (evaluation.store name).All P := by
  obtain ⟨result, env⟩ := evaluation
  cases result with
  | error e => exact h
  | ok value =>
    rw [Evaluation.store]
    split
    · rename_i next hassign
      exact ⟨h.value, h.env.assign (h.value value rfl) hassign⟩
    · exact all_error h.env _

namespace Expr

/-- A property that digits have and that every application hands on from its
operands to its result holds of all that an evaluation gives and leaves behind,
and of every operand on the way. -/
theorem eval_invariant {P : Value → Prop} (hnoun : ∀ d : UInt8, P (.scalar (.ofLength d.toNat)))
    (e : Expr) {env : Environment} (henv : env.All P)
    (happly : ∀ app ∈ e.applications env, app.Over P → ∀ v, app.result = .ok v → P v) :
    (e.eval env).All P ∧ ∀ app ∈ e.applications env, app.Over P := by
  induction e generalizing env with
  | noun value =>
    exact ⟨Evaluation.all_ok henv (hnoun value), by simp [applications]⟩
  | var name =>
    refine ⟨?_, by simp [applications]⟩
    rw [eval]
    split
    · rename_i value hget
      exact Evaluation.all_ok henv (henv name value hget)
    · exact Evaluation.all_error henv _
  | group inner ih => exact ih henv happly
  | monad verb right ih =>
    simp only [applications, List.mem_append] at happly ⊢
    obtain ⟨hright, hover⟩ := ih henv fun app happ => happly app (Or.inl happ)
    rw [eval]
    rcases heval : right.eval env with ⟨_ | w, next⟩
    · rw [heval] at hright
      exact ⟨Evaluation.all_error hright.env _, by simpa using hover⟩
    · rw [heval] at hright happly
      have hw : P w := hright.value w rfl
      refine ⟨⟨?_, hright.env⟩, ?_⟩
      · exact happly (.monadic verb w) (Or.inr (List.mem_singleton.2 rfl)) hw
      · rintro app (happ | happ)
        · exact hover app happ
        · rw [List.mem_singleton.1 happ]
          exact hw
  | dyad verb left right ihLeft ihRight =>
    simp only [applications, List.mem_append] at happly ⊢
    obtain ⟨hright, hoverRight⟩ := ihRight henv fun app happ => happly app (Or.inl happ)
    rw [eval]
    rcases hevalRight : right.eval env with ⟨_ | w, between⟩
    · rw [hevalRight] at hright
      exact ⟨Evaluation.all_error hright.env _, by simpa using hoverRight⟩
    · rw [hevalRight] at hright
      simp only [hevalRight, List.mem_append] at happly ⊢
      obtain ⟨hleft, hoverLeft⟩ :=
        ihLeft hright.env fun app happ => happly app (Or.inr (Or.inl happ))
      rcases hevalLeft : left.eval between with ⟨_ | a, next⟩
      · rw [hevalLeft] at hleft
        refine ⟨Evaluation.all_error hleft.env _, ?_⟩
        rintro app (happ | happ | happ)
        · exact hoverRight app happ
        · exact hoverLeft app happ
        · cases happ
      · rw [hevalLeft] at hleft happly
        have hoperands : P a ∧ P w := ⟨hleft.value a rfl, hright.value w rfl⟩
        refine ⟨⟨?_, hleft.env⟩, ?_⟩
        · exact happly (.dyadic verb a w) (Or.inr (Or.inr (List.mem_singleton.2 rfl))) hoperands
        · rintro app (happ | happ | happ)
          · exact hoverRight app happ
          · exact hoverLeft app happ
          · rw [List.mem_singleton.1 happ]
            exact hoperands
  | assign name value ih =>
    obtain ⟨hvalue, hover⟩ := ih henv happly
    exact ⟨hvalue.store name, hover⟩

/-- The expression of a line fails only by reading a variable that holds nothing
or by one of its applications; its assignments never fail. -/
theorem Canonical.eval_error_origin {e : Expr} (hcanonical : e.Canonical) {env : Environment}
    {cause : EvalError} (h : (e.eval env).1 = .error cause) :
    (∃ name, Slot.isName name = true ∧ cause = .undefinedVariable name) ∨
      ∃ app ∈ e.applications env, app.result = .error cause := by
  induction e generalizing env cause with
  | noun value => cases h
  | var name =>
    rw [eval] at h
    split at h
    · cases h
    · cases h
      exact Or.inl ⟨name, hcanonical, rfl⟩
  | group inner ih => exact ih hcanonical h
  | monad verb right ih =>
    simp only [applications, List.mem_append]
    rw [eval] at h
    rcases heval : right.eval env with ⟨failure | w, next⟩
    · rw [heval] at h
      have hfail : (right.eval env).1 = .error cause := by rw [heval]; exact h
      exact (ih hcanonical hfail).imp_right fun ⟨app, happ, hres⟩ => ⟨app, Or.inl happ, hres⟩
    · rw [heval] at h
      exact Or.inr ⟨.monadic verb w, Or.inr (List.mem_singleton.2 rfl), h⟩
  | dyad verb left right ihLeft ihRight =>
    obtain ⟨-, hleft, hright⟩ := hcanonical
    simp only [applications, List.mem_append]
    rw [eval] at h
    rcases hevalRight : right.eval env with ⟨failure | w, between⟩
    · rw [hevalRight] at h
      have hfail : (right.eval env).1 = .error cause := by rw [hevalRight]; exact h
      exact (ihRight hright hfail).imp_right fun ⟨app, happ, hres⟩ => ⟨app, Or.inl happ, hres⟩
    · rw [hevalRight] at h
      simp only [List.mem_append] at h ⊢
      rcases hevalLeft : left.eval between with ⟨failure | a, next⟩
      · rw [hevalLeft] at h
        have hfail : (left.eval between).1 = .error cause := by rw [hevalLeft]; exact h
        exact (ihLeft hleft hfail).imp_right fun ⟨app, happ, hres⟩ =>
          ⟨app, Or.inr (Or.inl happ), hres⟩
      · rw [hevalLeft] at h
        exact Or.inr ⟨.dyadic verb a w, Or.inr (Or.inr (List.mem_singleton.2 rfl)), h⟩
  | assign name value ih =>
    obtain ⟨hname, hvalue⟩ := hcanonical
    rw [eval] at h
    rcases heval : value.eval env with ⟨failure | v, next⟩
    · rw [heval] at h
      exact ih hvalue (by rw [heval]; exact h)
    · -- Under a letter the store succeeds, so there is no failure here.
      rw [heval, Evaluation.store] at h
      obtain ⟨slot, hslot⟩ := Option.isSome_iff_exists.1 hname
      simp [Environment.assign, hslot] at h

end Expr

end ArrayLang
