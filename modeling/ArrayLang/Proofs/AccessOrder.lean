import ArrayLang.Proofs.Accesses
import ArrayLang.Proofs.Applications
import ArrayLang.Proofs.Verbs

set_option autoImplicit false

/-!
# Variables are used from right to left

Evaluating a line uses its letters from the last to the first: each once, as the text
says, and none is passed over.  A failure cuts the sequence short; where a variable
held nothing, the reading that found so is the last of it.
-/

namespace ArrayLang

/-- A verb fails for its operands, never for a variable. -/
theorem Application.result_ne_undefined (app : Application) (name : Char) :
    app.result ≠ .error (.undefinedVariable name) := by
  intro h
  rcases app.result_error h with hstructural | ⟨w, n, -, -, -, hcause⟩ |
    ⟨s, lengths, w, n, -, -, -, hcause⟩
  · cases hstructural
  · cases hcause
  · cases hcause

namespace Access

/-- The accesses are the mentions from right to left: all of them where there is a
value, and those before a failure otherwise.  If a variable held nothing, it was the
last one read. -/
def FromRight (mentions : List Mention) (accesses : List Access) :
    Except EvalError Value → Prop
  | .ok _ => accesses.map mention = mentions.reverse
  | .error cause =>
    accesses.map mention <+: mentions.reverse ∧
      ∀ name, cause = .undefinedVariable name → accesses.getLast? = some (.read name none)

/-- A verb is applied after all accesses of its operands. -/
theorem FromRight.of_application {mentions : List Mention} {accesses : List Access}
    (h : accesses.map mention = mentions.reverse) (app : Application) :
    FromRight mentions accesses app.result := by
  cases hresult : app.result with
  | ok value => exact h
  | error cause =>
    refine ⟨h ▸ List.prefix_refl _, ?_⟩
    rintro name rfl
    exact absurd hresult (app.result_ne_undefined name)

/-- What stands further to the left is not reached by a failure. -/
theorem FromRight.of_failed_right {right : List Mention} {accesses : List Access}
    {cause : EvalError} (h : FromRight right accesses (.error cause)) (left : List Mention) :
    FromRight (left ++ right) accesses (.error cause) := by
  obtain ⟨hbefore, hlast⟩ := h
  refine ⟨?_, hlast⟩
  rw [List.reverse_append]
  exact hbefore.trans (List.prefix_append _ _)

/-- What stands further to the right comes before a failure. -/
theorem FromRight.of_failed_left {left right : List Mention} {before accesses : List Access}
    {cause : EvalError} (hbefore : before.map mention = right.reverse)
    (h : FromRight left accesses (.error cause)) :
    FromRight (left ++ right) (before ++ accesses) (.error cause) := by
  obtain ⟨hleft, hlast⟩ := h
  refine ⟨?_, ?_⟩
  · rw [List.map_append, List.reverse_append, hbefore]
    exact (List.prefix_append_right_inj _).2 hleft
  · intro name hcause
    rw [List.getLast?_append, hlast name hcause]
    rfl

end Access

open Access (FromRight)

/-- The accesses of an evaluation are what the tree mentions, from right to left. -/
theorem Expr.Canonical.accesses_fromRight {e : Expr} (h : e.Canonical) (env : Environment) :
    FromRight e.mentions (e.accesses env) (e.eval env).1 := by
  induction e generalizing env with
  | noun value => rfl
  | var name =>
    rw [accesses, dialogue, Dialogue.accesses, eval]
    cases env.get? name with
    | some value => rfl
    | none =>
      refine ⟨List.prefix_refl _, ?_⟩
      intro other hother
      cases hother
      rfl
  | group inner ih => exact ih h env
  | monad verb right ih =>
    have hright := ih h env
    rw [accesses_monad, eval]
    rcases heval : right.eval env with ⟨cause | w, after⟩
    · rw [heval] at hright
      exact hright
    · rw [heval] at hright
      exact FromRight.of_application hright (.monadic verb w)
  | dyad verb left right ihLeft ihRight =>
    obtain ⟨-, hleftCanonical, hrightCanonical⟩ := h
    have hright := ihRight hrightCanonical env
    rw [accesses_dyad, eval]
    rcases hevalRight : right.eval env with ⟨cause | w, between⟩
    · rw [hevalRight] at hright
      rw [List.append_nil]
      exact FromRight.of_failed_right hright left.mentions
    · rw [hevalRight] at hright
      have hleft := ihLeft hleftCanonical between
      simp only
      rcases hevalLeft : left.eval between with ⟨cause | a, after⟩
      · rw [hevalLeft] at hleft
        exact FromRight.of_failed_left hright hleft
      · rw [hevalLeft] at hleft
        refine FromRight.of_application ?_ (.dyadic verb a w)
        have hall : (right.accesses env ++ left.accesses between).map Access.mention =
            right.mentions.reverse ++ left.mentions.reverse := by
          rw [FromRight] at hright hleft
          rw [List.map_append, hright, hleft]
        rw [hall, ← List.reverse_append]
        rfl
  | assign name value ih =>
    obtain ⟨hname, hvalueCanonical⟩ := h
    have hvalue := ih hvalueCanonical env
    rw [accesses_assign hname, eval]
    rcases heval : value.eval env with ⟨cause | v, after⟩
    · rw [heval] at hvalue
      rw [List.append_nil]
      exact FromRight.of_failed_right hvalue [.write name]
    · rw [heval, FromRight] at hvalue
      obtain ⟨next, hnext⟩ := Environment.exists_assign hname after v
      have hstored : (value.accesses env ++ [Access.write name v]).map Access.mention =
          value.mentions.reverse ++ [Mention.write name] := by
        rw [List.map_append, hvalue]
        rfl
      simp only [Evaluation.store, hnext]
      rw [FromRight, hstored, mentions, List.reverse_cons]

/-- Evaluating a line uses the variables as its letters say, from the last letter to the
first: all of them where there is a value, those up to the failure otherwise, with the
reading that found nothing as the last.  The accesses account for the environment: taken
in the order of the text, a reading finds the nearest assignment to its right, and after
the evaluation every variable holds its leftmost assignment, or else what it held before. -/
theorem eval_uses_letters_right_to_left {limit : Nat} {line : String} {e : Expr}
    (h : parse limit line = .ok e) (env : Environment) :
    e.dialogue.run env = e.eval env ∧
    (∀ v, (e.eval env).1 = .ok v →
      (e.accesses env).map Access.mention = (Mention.ofText line.toList).reverse ∧
      ∀ name, (e.eval env).2.get? name =
        (Access.leftmost? name (e.accesses env).reverse).or (env.get? name)) ∧
    (∀ cause, (e.eval env).1 = .error cause →
      (e.accesses env).map Access.mention <+: (Mention.ofText line.toList).reverse ∧
      ∀ name, cause = .undefinedVariable name →
        (e.accesses env).getLast? = some (.read name none)) ∧
    (∀ (left right : List Access) (name : Char) (found : Option Value),
      (e.accesses env).reverse = left ++ .read name found :: right →
        found = (Access.leftmost? name right).or (env.get? name)) := by
  have horder := (parse_sound h).1.canonical.accesses_fromRight env
  rw [Mention.ofText_of_parse h]
  refine ⟨e.run_dialogue env, ?_, ?_, ?_⟩
  · intro v hv
    rw [hv] at horder
    refine ⟨horder, ?_⟩
    intro name
    rw [← e.run_dialogue env]
    exact e.dialogue.get?_run env name
  · intro cause hcause
    rw [hcause] at horder
    exact horder
  · intro left right name found hsplit
    have hforward : e.dialogue.accesses env =
        right.reverse ++ .read name found :: left.reverse := by
      rw [← List.reverse_reverse (e.dialogue.accesses env), ← Expr.accesses, hsplit]
      simp
    have hfound := e.dialogue.found_of_accesses env hforward
    rwa [List.reverse_reverse] at hfound

/-- A left operand that reads what the right one assigns, and a failure after an
assignment. -/
theorem eval_uses_letters_of_operands :
    ((Expr.dyad .comma (.var 'x') (.group (.assign 'x' (.noun 3)))).accesses .empty).map
        Access.mention = [.write 'x', .read 'x'] ∧
    ((Expr.dyad .comma (.var 'q') (.assign 'b' (.noun 1))).accesses .empty).getLast? =
      some (.read 'q' none) := by
  have hassigned : parse 3 "x, (x =3)" =
      .ok (.dyad .comma (.var 'x') (.group (.assign 'x' (.noun 3)))) := by rfl
  have hfailing : parse 3 "q,b=1" =
      .ok (.dyad .comma (.var 'q') (.assign 'b' (.noun 1))) := by rfl
  exact ⟨((eval_uses_letters_right_to_left hassigned .empty).2.1 (.vector [3, 3]) (by rfl)).1,
    ((eval_uses_letters_right_to_left hfailing .empty).2.2.1 (.undefinedVariable 'q')
      (by rfl)).2 'q' rfl⟩

end ArrayLang
