import ArrayLang.Eval
import ArrayLang.Proofs.Mentions

set_option autoImplicit false

/-!
# Evaluation is local to the names of an expression

What an evaluation gives depends on the variables that the expression reads, and what
it leaves behind is the environment with some bindings put over it, of variables that
the expression assigns.  Outcome and bindings are the same for all environments that
agree on what is read, also where the evaluation fails part of the way.
-/

namespace ArrayLang

namespace Environment

/-! ## Bindings put over an environment -/

/-- Environments that hold the same under every name are the same. -/
theorem ext_get? {env other : Environment} (h : ∀ name, env.get? name = other.get? name) :
    env = other := by
  obtain ⟨slots⟩ := env
  obtain ⟨others⟩ := other
  congr 1
  apply Vector.ext
  intro i hi
  have hslot := h (Slot.toChar ⟨i, hi⟩)
  rwa [get?, get?, Slot.ofChar?_toChar] at hslot

/-- The environment with bindings put over it: a name that is bound holds what it is
bound to, any other what it held. -/
def overriddenBy (env bindings : Environment) : Environment :=
  ⟨Vector.zipWith Option.or bindings.slots env.slots⟩

@[simp] theorem get?_overriddenBy (env bindings : Environment) (name : Char) :
    (env.overriddenBy bindings).get? name = (bindings.get? name).or (env.get? name) := by
  unfold get?
  split
  · simp [overriddenBy]
  · rfl

theorem overriddenBy_empty (env : Environment) : env.overriddenBy empty = env := by
  apply ext_get?
  intro name
  simp

/-- Bindings put over one another are put on together. -/
theorem overriddenBy_overriddenBy (env first second : Environment) :
    (env.overriddenBy first).overriddenBy second =
      env.overriddenBy (first.overriddenBy second) := by
  apply ext_get?
  intro name
  simp [Option.or_assoc]

/-- An assignment is one more binding. -/
theorem assign_overriddenBy {bindings next : Environment} {name : Char} {value : Value}
    (h : bindings.assign name value = .ok next) (env : Environment) :
    (env.overriddenBy bindings).assign name value = .ok (env.overriddenBy next) := by
  cases hname : Slot.isName name with
  | false =>
    rw [assign_of_not_isName hname] at h
    cases h
  | true =>
    obtain ⟨after, hafter⟩ := exists_assign hname (env.overriddenBy bindings) value
    rw [hafter]
    congr 1
    apply ext_get?
    intro other
    rw [get?_of_assign hafter, get?_overriddenBy, get?_overriddenBy, get?_of_assign h]
    by_cases hother : other = name <;> simp [hother]

/-- Only names that the mentions assign are bound. -/
def BindsOnly (mentions : List Mention) (bindings : Environment) : Prop :=
  ∀ name, bindings.contains name = true → .write name ∈ mentions

theorem bindsOnly_empty (mentions : List Mention) : BindsOnly mentions empty := by
  intro name h
  simp [contains] at h

theorem BindsOnly.get?_eq_none {mentions : List Mention} {bindings : Environment}
    (h : BindsOnly mentions bindings) {name : Char} (hname : .write name ∉ mentions) :
    bindings.get? name = none := by
  cases hget : bindings.get? name with
  | none => rfl
  | some value => exact absurd (h name (by rw [contains, hget]; rfl)) hname

theorem BindsOnly.mono {mentions more : List Mention} {bindings : Environment}
    (h : BindsOnly mentions bindings) (hmore : mentions ⊆ more) : BindsOnly more bindings :=
  fun name hname => hmore (h name hname)

theorem BindsOnly.overriddenBy {mentions : List Mention} {first second : Environment}
    (hfirst : BindsOnly mentions first) (hsecond : BindsOnly mentions second) :
    BindsOnly mentions (first.overriddenBy second) := by
  intro name h
  rw [contains, get?_overriddenBy, Option.isSome_or, Bool.or_eq_true] at h
  rcases h with h | h
  · exact hsecond name h
  · exact hfirst name h

theorem BindsOnly.assign {mentions : List Mention} {bindings next : Environment} {name : Char}
    {value : Value} (h : BindsOnly mentions bindings)
    (hnext : bindings.assign name value = .ok next) :
    BindsOnly (.write name :: mentions) next := by
  intro other hother
  rw [contains, get?_of_assign hnext] at hother
  split at hother
  · rename_i heq
    subst heq
    exact List.mem_cons_self
  · exact List.mem_cons_of_mem _ (h other hother)

/-- The environments hold the same under every name that the mentions read. -/
def AgreeOn (mentions : List Mention) (env other : Environment) : Prop :=
  ∀ name, .read name ∈ mentions → env.get? name = other.get? name

theorem AgreeOn.refl (mentions : List Mention) (env : Environment) : AgreeOn mentions env env :=
  fun _ _ => rfl

theorem AgreeOn.mono {mentions fewer : List Mention} {env other : Environment}
    (h : AgreeOn mentions env other) (hfewer : fewer ⊆ mentions) : AgreeOn fewer env other :=
  fun name hname => h name (hfewer hname)

theorem AgreeOn.overriddenBy {mentions : List Mention} {env other : Environment}
    (h : AgreeOn mentions env other) (bindings : Environment) :
    AgreeOn mentions (env.overriddenBy bindings) (other.overriddenBy bindings) := by
  intro name hname
  rw [get?_overriddenBy, get?_overriddenBy, h name hname]

end Environment

open Environment (BindsOnly AgreeOn)

/-! ## What an evaluation depends on and what it changes -/

/-- The evaluation of an expression in an environment fixes bindings of variables that
the expression assigns.  In every environment that agrees on what is read, the outcome is
the same, and these bindings are what is put over it. -/
theorem Expr.exists_bindings (e : Expr) (env : Environment) :
    ∃ bindings, BindsOnly e.mentions bindings ∧
      ∀ other, AgreeOn e.mentions env other →
        e.eval other = ((e.eval env).1, other.overriddenBy bindings) := by
  induction e generalizing env with
  | noun value =>
    refine ⟨.empty, Environment.bindsOnly_empty _, ?_⟩
    intro other _
    rw [Environment.overriddenBy_empty]
    rfl
  | var name =>
    refine ⟨.empty, Environment.bindsOnly_empty _, ?_⟩
    intro other hagree
    rw [Environment.overriddenBy_empty, eval, eval, ← hagree name List.mem_cons_self]
    cases env.get? name <;> rfl
  | group inner ih => exact ih env
  | monad verb right ih =>
    obtain ⟨bindings, hbinds, hlocal⟩ := ih env
    refine ⟨bindings, hbinds, ?_⟩
    intro other hagree
    rw [eval, eval, hlocal other hagree]
    rcases right.eval env with ⟨_ | w, after⟩ <;> rfl
  | dyad verb left right ihLeft ihRight =>
    have hleftSub : left.mentions ⊆ left.mentions ++ right.mentions :=
      List.subset_append_left _ _
    have hrightSub : right.mentions ⊆ left.mentions ++ right.mentions :=
      List.subset_append_right _ _
    obtain ⟨first, hfirst, hright⟩ := ihRight env
    -- The left operand is evaluated over the bindings that the right one has made.
    obtain ⟨second, hsecond, hleft⟩ := ihLeft (env.overriddenBy first)
    have hself := hright env (AgreeOn.refl _ _)
    rcases hevalRight : right.eval env with ⟨cause | w, between⟩
    · refine ⟨first, hfirst.mono hrightSub, ?_⟩
      intro other hagree
      rw [eval, eval, hright other (hagree.mono hrightSub), hevalRight]
    · refine ⟨first.overriddenBy second,
        (hfirst.mono hrightSub).overriddenBy (hsecond.mono hleftSub), ?_⟩
      intro other hagree
      have hagreeLeft := (hagree.mono hleftSub).overriddenBy first
      obtain rfl : between = env.overriddenBy first := by
        rw [hevalRight] at hself
        exact congrArg Prod.snd hself
      rw [eval, eval, hright other (hagree.mono hrightSub), hevalRight]
      simp only
      rw [hleft _ hagreeLeft, Environment.overriddenBy_overriddenBy]
      rcases left.eval (env.overriddenBy first) with ⟨cause | a, after⟩ <;> rfl
  | assign name value ih =>
    obtain ⟨bindings, hbinds, hlocal⟩ := ih env
    have hself := hlocal env (AgreeOn.refl _ _)
    have hsub : value.mentions ⊆ .write name :: value.mentions := List.subset_cons_self _ _
    rcases heval : value.eval env with ⟨cause | v, after⟩
    · refine ⟨bindings, hbinds.mono hsub, ?_⟩
      intro other hagree
      rw [eval, eval, hlocal other (hagree.mono hsub), heval]
      rfl
    · cases hname : Slot.isName name with
      | false =>
        refine ⟨bindings, hbinds.mono hsub, ?_⟩
        intro other hagree
        rw [eval, eval, hlocal other (hagree.mono hsub), heval]
        simp only [Evaluation.store, Environment.assign_of_not_isName hname]
      | true =>
        obtain ⟨next, hnext⟩ := Environment.exists_assign hname bindings v
        refine ⟨next, hbinds.assign hnext, ?_⟩
        intro other hagree
        obtain rfl : after = env.overriddenBy bindings := by
          rw [heval] at hself
          exact congrArg Prod.snd hself
        rw [eval, eval, hlocal other (hagree.mono hsub), heval]
        simp only [Evaluation.store, Environment.assign_overriddenBy hnext]

/-- An evaluation in two environments that agree on every name that the expression reads
has one outcome, and puts the same bindings over both, of names that the expression
assigns.  So a variable that it does not assign keeps its value, and one that held a
value still holds one.  All this holds of failing evaluations too. -/
theorem eval_local_to_names (e : Expr) (env₁ env₂ : Environment)
    (h : ∀ name, .read name ∈ e.mentions → env₁.get? name = env₂.get? name) :
    (e.eval env₁).1 = (e.eval env₂).1 ∧
    (∃ bindings : Environment,
      (∀ name, bindings.contains name = true → .write name ∈ e.mentions) ∧
      (e.eval env₁).2 = env₁.overriddenBy bindings ∧
      (e.eval env₂).2 = env₂.overriddenBy bindings) ∧
    (∀ name, .write name ∉ e.mentions → (e.eval env₁).2.get? name = env₁.get? name) ∧
    (∀ name, env₁.contains name = true → (e.eval env₁).2.contains name = true) := by
  obtain ⟨bindings, hbinds, hlocal⟩ := e.exists_bindings env₁
  have hfirst : (e.eval env₁).2 = env₁.overriddenBy bindings :=
    congrArg Prod.snd (hlocal env₁ (AgreeOn.refl _ _))
  have hsecond := hlocal env₂ h
  refine ⟨?_, ⟨bindings, hbinds, hfirst, ?_⟩, ?_, ?_⟩
  · rw [hsecond]
  · rw [hsecond]
  · intro name hname
    rw [hfirst, Environment.get?_overriddenBy, hbinds.get?_eq_none hname, Option.none_or]
  · intro name hname
    rw [hfirst, Environment.contains, Environment.get?_overriddenBy, Option.isSome_or,
      Bool.or_eq_true]
    exact Or.inr hname

/-- An assignment under a name that is none, after one that was made: environments that
agree on `b` alone. -/
theorem eval_local_to_names_on_failure :
    ∃ bindings : Environment,
      (∀ name, bindings.contains name = true →
        .write name ∈ (Expr.assign 'X' (.assign 'a' (.var 'b'))).mentions) ∧
      ((Expr.assign 'X' (.assign 'a' (.var 'b'))).eval
        ⟨(Vector.replicate slotCount none).set 1 (some (.scalar 7))⟩).2 =
          Environment.overriddenBy
            ⟨(Vector.replicate slotCount none).set 1 (some (.scalar 7))⟩ bindings ∧
      ((Expr.assign 'X' (.assign 'a' (.var 'b'))).eval
        ⟨Vector.replicate slotCount (some (.scalar 7))⟩).2 =
          Environment.overriddenBy ⟨Vector.replicate slotCount (some (.scalar 7))⟩ bindings := by
  refine (eval_local_to_names (.assign 'X' (.assign 'a' (.var 'b'))) _ _ ?_).2.1
  intro name hname
  have hb : name = 'b' := by simpa [Expr.mentions] using hname
  subst hb
  rfl

end ArrayLang
