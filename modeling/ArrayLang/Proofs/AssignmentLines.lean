import ArrayLang.Proofs.NestingLimit
import ArrayLang.Proofs.Session

set_option autoImplicit false

/-!
# Lines that assign

A line that begins with a letter and `=` assigns what the rest of it says, and reading the
rest takes one level of nesting less.  The value is stored after all that the rest does: the
line answers as the rest alone would, and leaves the variables as the rest leaves them, but
for the letter, which holds the value whatever the rest did with it.
-/

namespace ArrayLang

/-! ## Reading -/

theorem parse_assignment {limit : Nat} {x : Char} {rest : String} {e : Expr}
    (hx : Slot.isName x = true) (hrest : parse limit rest = .ok e) :
    parse (limit + 1) (String.singleton x ++ "=" ++ rest) = .ok (.assign x e) := by
  obtain ⟨hfits, htext⟩ := parse_sound hrest
  have hnesting := hfits.nesting_le
  have hletter : Text.isBlank x = false :=
    Token.isBlank_eq_false_of_ofChar_ne_other (by simp [Token.ofChar_name hx])
  have hequals : Text.isBlank '=' = false := by decide
  apply parse_complete
  · refine ⟨⟨hx, hfits.canonical⟩, ?_⟩
    rw [Expr.nesting]
    omega
  · simp [htext, Text.withoutBlanks, hletter, hequals]

theorem parse_variable {x : Char} (hx : Slot.isName x = true) (limit : Nat) :
    parse limit (String.singleton x) = .ok (.var x) := by
  have htext : String.singleton x = (Expr.var x).text := rfl
  rw [htext]
  exact parse_text ⟨hx, Nat.zero_le limit⟩

/-! ## Storing -/

/-- Under a letter every value can be stored, and the evaluation keeps its value. -/
theorem Evaluation.exists_store {x : Char} (hx : Slot.isName x = true) (value : Value)
    (env : Environment) :
    ∃ next, env.assign x value = .ok next ∧ store x (.ok value, env) = (.ok value, next) := by
  obtain ⟨next, hnext⟩ := env.exists_assign hx value
  exact ⟨next, hnext, by rw [store, hnext]⟩

/-- A variable alone on a line shows what it holds, and changes nothing. -/
theorem Session.evalLine_variable {session : Session} {x : Char} {value : Value}
    (hx : Slot.isName x = true) (hvalue : session.env.get? x = some value) :
    session.evalLine (String.singleton x) = (.value value, session) := by
  rw [evalLine_of_parse (parse_variable hx session.limit), Expr.eval, hvalue]

/-- Let the rest of a line be accepted with one level to spare.  With a letter and `=` in
front of it, the line gives the same value or fails for the same cause.  If there is a
value, the variables are afterwards what the rest alone leaves, with the value stored under
the letter; the letter on the next line shows that value and changes nothing.  If the line
fails, the session is as it was. -/
theorem assignment_answers_as_its_right_side {session : Session} {x : Char} {rest : String}
    {e : Expr} (hlimit : 1 ≤ session.limit) (hx : Slot.isName x = true)
    (haccepted : parse (session.limit - 1) rest = .ok e) :
    (session.evalLine (String.singleton x ++ "=" ++ rest)).1 = (session.evalLine rest).1 ∧
    ((∃ value next,
        (session.evalLine rest).1 = .value value ∧
        (session.evalLine rest).2.env.assign x value = .ok next ∧
        (∀ name, next.get? name =
          if name = x then some value else (session.evalLine rest).2.env.get? name) ∧
        (session.evalLine (String.singleton x ++ "=" ++ rest)).2 = ⟨next, session.limit⟩ ∧
        Session.evalLine ⟨next, session.limit⟩ (String.singleton x) =
          (.value value, ⟨next, session.limit⟩)) ∨
      ∃ cause,
        (session.evalLine rest).1 = .failure (.eval cause) ∧
        (session.evalLine (String.singleton x ++ "=" ++ rest)).2 = session) := by
  have hassign := parse_assignment hx haccepted
  rw [Nat.sub_add_cancel hlimit] at hassign
  have hrest : parse session.limit rest = .ok e :=
    parse_of_le (Nat.sub_le _ _) haccepted (by simp)
  rw [Session.evalLine_of_parse hassign, Session.evalLine_of_parse hrest, Expr.eval]
  -- Both lines evaluate `e` in the same variables; only the store at the end is added.
  rcases e.eval session.env with ⟨cause | value, env⟩
  · exact ⟨rfl, Or.inr ⟨cause, rfl, rfl⟩⟩
  · obtain ⟨next, hnext, hstore⟩ := Evaluation.exists_store hx value env
    have hget := Environment.get?_of_assign hnext
    have hheld : next.get? x = some value := by rw [hget, if_pos rfl]
    have hshown : Session.evalLine ⟨next, session.limit⟩ (String.singleton x) =
        (.value value, ⟨next, session.limit⟩) := Session.evalLine_variable hx hheld
    rw [hstore]
    exact ⟨rfl, Or.inl ⟨value, next, rfl, hnext, hget, rfl, hshown⟩⟩

/-- The right side assigns the letter itself before it reads it, and needs all levels but
one; and a right side that fails after it has assigned the letter. -/
theorem assignment_answers_as_right_side_that_reassigns :
    parse 3 "a,a=~2" =
      .ok (.dyad .comma (.var 'a') (.assign 'a' (.monad .tilde (.noun 2)))) ∧
    ((Session.new 4).evalLine (String.singleton 'a' ++ "=" ++ "a,a=~2")).1 =
      ((Session.new 4).evalLine "a,a=~2").1 ∧
    ((Session.new 4).evalLine (String.singleton 'a' ++ "=" ++ "a,a=~2")).2.env.get? 'a' =
      some (.vector [0, 1, 0, 1]) ∧
    ((Session.new 4).evalLine (String.singleton 'a' ++ "=" ++ "a,a=~2")).2.evalLine
        (String.singleton 'a') =
      (.value (.vector [0, 1, 0, 1]),
        ((Session.new 4).evalLine (String.singleton 'a' ++ "=" ++ "a,a=~2")).2) ∧
    ((Session.new 4).evalLine (String.singleton 'a' ++ "=" ++ "q,a=1")).1 =
      ((Session.new 4).evalLine "q,a=1").1 ∧
    ((Session.new 4).evalLine (String.singleton 'a' ++ "=" ++ "q,a=1")).2 = Session.new 4 := by
  have hlimit : 1 ≤ (Session.new 4).limit := by decide
  have hletter : Slot.isName 'a' = true := by decide
  have hreassigns : parse 3 "a,a=~2" =
      .ok (.dyad .comma (.var 'a') (.assign 'a' (.monad .tilde (.noun 2)))) := by rfl
  have hfails : parse 3 "q,a=1" =
      .ok (.dyad .comma (.var 'q') (.assign 'a' (.noun 1))) := by rfl
  have hvalue : ((Session.new 4).evalLine "a,a=~2").1 = .value (.vector [0, 1, 0, 1]) := by rfl
  have hfailure : ((Session.new 4).evalLine "q,a=1").1 =
      .failure (.eval (.undefinedVariable 'q')) := by rfl
  obtain ⟨hfirst, ⟨value, next, hsame, -, hget, hsession, hshown⟩ | ⟨cause, hcause, -⟩⟩ :=
    assignment_answers_as_its_right_side hlimit hletter hreassigns
  · obtain ⟨hsecond, ⟨value', next', hsame', -⟩ | ⟨cause, -, hkept⟩⟩ :=
      assignment_answers_as_its_right_side hlimit hletter hfails
    · cases hfailure.symm.trans hsame'
    · cases hvalue.symm.trans hsame
      rw [hsession]
      exact ⟨hreassigns, hfirst, (hget 'a').trans (if_pos rfl), hshown, hsecond, hkept⟩
  · cases hvalue.symm.trans hcause

end ArrayLang
