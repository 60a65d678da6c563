import ArrayLang.Proofs.Locality
import ArrayLang.Proofs.Session

set_option autoImplicit false

/-!
# Independent lines can be exchanged

Two lines are independent when neither assigns a variable that the other mentions.
What a line answers depends on the variables that it reads, and what it does to a
session is to put bindings over the variables: those that its evaluation makes if it
has a value, and none if it is blank or fails.  So independent lines do the same in
either order, whichever of them fail.
-/

namespace ArrayLang

namespace Environment

/-- Bindings of different names can be put on in either order. -/
theorem overriddenBy_comm {first second : Environment}
    (h : ∀ name, first.get? name = none ∨ second.get? name = none) (env : Environment) :
    (env.overriddenBy first).overriddenBy second =
      (env.overriddenBy second).overriddenBy first := by
  apply ext_get?
  intro name
  rcases h name with hnone | hnone <;> simp [hnone]

/-- Bindings of names that are not read leave an environment as it is for the reader. -/
theorem BindsOnly.agreeOn {mentions others : List Mention} {bindings : Environment}
    (h : BindsOnly others bindings)
    (hunread : ∀ name, .write name ∈ others → .read name ∉ mentions) (env : Environment) :
    AgreeOn mentions env (env.overriddenBy bindings) := by
  intro name hname
  have hunbound : .write name ∉ others := fun hwrite => hunread name hwrite hname
  rw [get?_overriddenBy, h.get?_eq_none hunbound, Option.none_or]

end Environment

open Environment (BindsOnly AgreeOn)

/-- No variable that one side assigns is read or assigned by the other. -/
def Mention.Independent (first second : List Mention) : Prop :=
  (∀ name, .write name ∈ first → .read name ∉ second ∧ .write name ∉ second) ∧
    ∀ name, .write name ∈ second → .read name ∉ first ∧ .write name ∉ first

namespace Session

/-- What a line mentions; nothing if it cannot be read. -/
def lineMentions (limit : Nat) (line : String) : List Mention :=
  match parse limit line with
  | .ok e => e.mentions
  | .error _ => []

theorem lineMentions_of_parse {limit : Nat} {line : String} {e : Expr}
    (h : parse limit line = .ok e) : lineMentions limit line = e.mentions := by
  rw [lineMentions, h]

/-- A line fixes its answer and the bindings that it makes, for all sessions whose
variables agree on what the line reads. -/
theorem exists_line_bindings (session : Session) (line : String) :
    ∃ bindings, BindsOnly (lineMentions session.limit line) bindings ∧
      ∀ env, AgreeOn (lineMentions session.limit line) session.env env →
        evalLine ⟨env, session.limit⟩ line =
          ((session.evalLine line).1, ⟨env.overriddenBy bindings, session.limit⟩) := by
  rcases session.evalLine_cases line with ⟨hblank, h⟩ | ⟨hblank, cause, hparse, h⟩ |
    ⟨hblank, e, cause, after, hparse, heval, h⟩ | ⟨hblank, e, value, after, hparse, heval, h⟩
  · refine ⟨.empty, Environment.bindsOnly_empty _, ?_⟩
    intro env _
    rw [h, Environment.overriddenBy_empty]
    simp [evalLine, hblank]
  · refine ⟨.empty, Environment.bindsOnly_empty _, ?_⟩
    intro env _
    rw [h, Environment.overriddenBy_empty]
    simp [evalLine, hblank, hparse]
  · -- The assignments made before the failure are undone: nothing is bound.
    obtain ⟨bindings, -, hlocal⟩ := e.exists_bindings session.env
    rw [lineMentions_of_parse hparse]
    refine ⟨.empty, Environment.bindsOnly_empty _, ?_⟩
    intro env hagree
    have heval' := hlocal env hagree
    rw [heval] at heval'
    rw [h, Environment.overriddenBy_empty]
    simp [evalLine, hblank, hparse, heval']
  · obtain ⟨bindings, hbinds, hlocal⟩ := e.exists_bindings session.env
    rw [lineMentions_of_parse hparse]
    refine ⟨bindings, hbinds, ?_⟩
    intro env hagree
    have heval' := hlocal env hagree
    rw [heval] at heval'
    rw [h]
    simp [evalLine, hblank, hparse, heval']

end Session

/-- Independent lines answer the same in either order, and leave the same session
behind. -/
theorem independent_lines_commute (session : Session) (line₁ line₂ : String)
    (h : Mention.Independent (Session.lineMentions session.limit line₁)
      (Session.lineMentions session.limit line₂)) :
    ((session.evalLine line₂).2.evalLine line₁).1 = (session.evalLine line₁).1 ∧
    ((session.evalLine line₁).2.evalLine line₂).1 = (session.evalLine line₂).1 ∧
    ((session.evalLine line₁).2.evalLine line₂).2 =
      ((session.evalLine line₂).2.evalLine line₁).2 := by
  obtain ⟨first, hfirst, hlocal₁⟩ := session.exists_line_bindings line₁
  obtain ⟨second, hsecond, hlocal₂⟩ := session.exists_line_bindings line₂
  have hafter₁ : (session.evalLine line₁).2 = ⟨session.env.overriddenBy first, session.limit⟩ :=
    congrArg Prod.snd (hlocal₁ session.env (AgreeOn.refl _ _))
  have hafter₂ : (session.evalLine line₂).2 = ⟨session.env.overriddenBy second, session.limit⟩ :=
    congrArg Prod.snd (hlocal₂ session.env (AgreeOn.refl _ _))
  have hlate₁ := hlocal₁ _ (hsecond.agreeOn (fun name hname => (h.2 name hname).1) session.env)
  have hlate₂ := hlocal₂ _ (hfirst.agreeOn (fun name hname => (h.1 name hname).1) session.env)
  have hdisjoint (name : Char) : first.get? name = none ∨ second.get? name = none := by
    by_cases hname : .write name ∈ Session.lineMentions session.limit line₁
    · exact Or.inr (hsecond.get?_eq_none (h.1 name hname).2)
    · exact Or.inl (hfirst.get?_eq_none hname)
  rw [hafter₁, hafter₂, hlate₁, hlate₂]
  refine ⟨rfl, rfl, ?_⟩
  rw [Environment.overriddenBy_comm hdisjoint]

/-- A line that assigns `a`, and one that fails after it has assigned `b`. -/
theorem independent_lines_commute_past_failure :
    (((Session.new 9).evalLine "q,b=1").2.evalLine "a=~3").1 =
      ((Session.new 9).evalLine "a=~3").1 ∧
    (((Session.new 9).evalLine "a=~3").2.evalLine "q,b=1").1 =
      ((Session.new 9).evalLine "q,b=1").1 ∧
    (((Session.new 9).evalLine "a=~3").2.evalLine "q,b=1").2 =
      (((Session.new 9).evalLine "q,b=1").2.evalLine "a=~3").2 := by
  apply independent_lines_commute
  have hfirst : Session.lineMentions (Session.new 9).limit "a=~3" = [.write 'a'] := by rfl
  have hsecond : Session.lineMentions (Session.new 9).limit "q,b=1" =
      [.read 'q', .write 'b'] := by rfl
  rw [hfirst, hsecond]
  simp [Mention.Independent]

end ArrayLang
