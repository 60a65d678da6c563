import ArrayLang.Proofs.NestingLimit
import ArrayLang.Proofs.Parentheses
import ArrayLang.Proofs.Session

set_option autoImplicit false

/-!
# Groups that change nothing

A verb or `=` outside all parentheses takes the whole rest of its line as its right
operand.  So does the beginning of the line, as a whole.  Parentheses around that rest
only say what is so without them: the line has the same value and does the same to the
variables, at the cost of one level of nesting.
-/

namespace ArrayLang

/-- What comes after the text is an operand that reaches to the end of the line: the text
is empty, or ends in a verb or `=` that stands outside all parentheses. -/
def Text.BeforeOperand (text : String) : Prop :=
  text = "" ∨ ∃ (before : String) (c : Char), text = before ++ String.singleton c ∧
    ((Verb.ofChar? c).isSome = true ∨ c = '=') ∧ Balanced before.toList

/-! ## Reading above frames that stay -/

namespace Frame

theorem closeGroup?_eq_none {stack : List Frame} (h : openGroups stack = 0) (e : Expr) :
    closeGroup? stack e = none := by
  rw [Option.eq_none_iff_forall_ne_some]
  rintro ⟨outer, closed⟩ hclose
  obtain ⟨inner, place, rfl, -⟩ := closeGroup?_innermost hclose
  rw [openGroups_append, openGroups] at h
  omega

/-- Frames below, none of them a group, are left alone when a group is closed. -/
theorem closeGroup?_append {below : List Frame} (h : openGroups below = 0) (stack : List Frame)
    (e : Expr) :
    closeGroup? (stack ++ below) e =
      (closeGroup? stack e).map fun (outer, closed) => (outer ++ below, closed) := by
  induction stack generalizing e with
  | nil => exact closeGroup?_eq_none h e
  | cons frame rest ih =>
    cases frame with
    | group place => rfl
    | monad | dyad | assign => exact ih _

theorem complete_append (stack below : List Frame) (e : Expr) :
    complete (stack ++ below) e = (complete stack e).bind (complete below) := by
  induction stack generalizing e with
  | nil => rfl
  | cons frame rest ih =>
    cases frame with
    | group place => rfl
    | monad | dyad | assign => exact ih _

end Frame

namespace Reading

/-- The reading with further frames below its own. -/
def above (below : List Frame) : Reading → Reading
  | operand stack => operand (stack ++ below)
  | operator stack left => operator (stack ++ below) left

theorem push_above {limit : Nat} {below stack : List Frame} {frame : Frame} {c : Char}
    {offset : Nat} {next : Reading}
    (h : push limit (stack ++ below) frame c offset = .ok next) :
    ∃ upper, push (limit - below.length) stack frame c offset = .ok upper ∧
      next = upper.above below := by
  obtain ⟨hlt, rfl⟩ := push_ok h
  rw [List.length_append] at hlt
  exact ⟨operand (frame :: stack), if_pos (by omega), rfl⟩

/-- Above frames that are no groups, a character is read as it is without them, with as
many levels less. -/
theorem step_above {limit : Nat} {below : List Frame} (hbelow : Frame.openGroups below = 0)
    {reading next : Reading} {c : Char} {offset : Nat}
    (h : step limit (reading.above below) c offset = .ok next) :
    ∃ upper, step (limit - below.length) reading c offset = .ok upper ∧
      next = upper.above below := by
  cases reading with
  | operand stack =>
    simp only [above, step] at h ⊢
    split at h
    · exact push_above h
    · cases h
      exact ⟨_, rfl, rfl⟩
    · cases h
      exact ⟨_, rfl, rfl⟩
    · exact push_above h
    all_goals cases h
  | operator stack left =>
    simp only [above, step] at h ⊢
    split at h
    · exact push_above h
    · rw [Frame.closeGroup?_append hbelow] at h
      cases hclose : Frame.closeGroup? stack left with
      | none =>
        rw [hclose] at h
        cases h
      | some result =>
        rw [hclose] at h
        cases h
        exact ⟨_, rfl, rfl⟩
    · split at h
      · exact push_above h
      · cases h
    all_goals cases h

theorem advance_above {limit : Nat} {below : List Frame} (hbelow : Frame.openGroups below = 0)
    {chars : List Char} {reading next : Reading} {offset : Nat}
    (h : advance limit (reading.above below) offset chars = .ok next) :
    ∃ upper, advance (limit - below.length) reading offset chars = .ok upper ∧
      next = upper.above below := by
  induction chars generalizing reading offset with
  | nil =>
    cases h
    exact ⟨reading, rfl, rfl⟩
  | cons c rest ih =>
    rw [advance] at h ⊢
    split at h
    · rename_i hblank
      rw [if_pos hblank]
      exact ih h
    · rename_i hblank
      rw [if_neg hblank]
      split at h
      · rename_i mid hstep
        obtain ⟨upper, hupper, rfl⟩ := step_above hbelow hstep
        rw [hupper]
        exact ih h
      · cases h

/-- The last character of a text, if it is not blank, is read in a step of its own. -/
theorem advance_concat {limit : Nat} {before : List Char} {c : Char} {reading next : Reading}
    {offset : Nat} (hblank : Text.isBlank c = false)
    (h : advance limit reading offset (before ++ [c]) = .ok next) :
    ∃ mid, advance limit reading offset before = .ok mid ∧
      step limit mid c (offset + Text.byteLength before) = .ok next := by
  rw [advance_append] at h
  split at h
  · rename_i mid hmid
    refine ⟨mid, hmid, ?_⟩
    simp only [advance, hblank, Bool.false_eq_true, if_false] at h
    split at h
    · rename_i last hlast
      cases h
      exact hlast
    · cases h
  · cases h

/-- A verb or `=` outside all parentheses leaves the reader before an operand, with no
group open. -/
theorem operand_of_beforeOperand {limit : Nat} {text : String} {reading : Reading}
    (htext : Text.BeforeOperand text) (h : advance limit .start 0 text.toList = .ok reading) :
    ∃ stack, reading = operand stack ∧ Frame.openGroups stack = 0 := by
  have hcount := (reaches_iff.2 ⟨h, rfl⟩).openedIn.count
  rcases htext with rfl | ⟨before, c, rfl, hc, hbalanced⟩
  · cases h
    exact ⟨[], rfl, rfl⟩
  · have htoken : (∃ verb, Token.ofChar c = .verb verb) ∨ Token.ofChar c = .equals := by
      rcases hc with hverb | hequals
      · obtain ⟨verb, hverb⟩ := Option.isSome_iff_exists.1 hverb
        have hglyph := (Verb.ofChar?_eq_some_iff c verb).1 hverb
        exact Or.inl ⟨verb, (Token.ofChar_eq_iff c _).2 hglyph⟩
      · exact Or.inr ((Token.ofChar_eq_iff c _).2 hequals)
    have hlevel : Text.opensLevel c = true :=
      (Text.opensLevel_iff c).2 (htoken.imp_right Or.inl)
    have hparen : c ≠ '(' ∧ c ≠ ')' := by
      rcases htoken with ⟨verb, ht⟩ | ht <;>
        exact Token.ne_parenthesis (by simp [ht]) (by simp [ht])
    have hbefore : Text.openAfter? 0 before.toList = some 0 := hbalanced
    rw [String.toList_append, String.toList_singleton] at h hcount
    obtain ⟨mid, -, hstep⟩ := advance_concat (Text.isBlank_eq_false_of_opensLevel hlevel) h
    rcases step_ok_cases hstep with ⟨frame, rfl, -, -, -⟩ | ⟨e, -, hnot, -⟩ |
      ⟨left, outer, closed, -, hclosing, -⟩
    · refine ⟨frame :: mid.stack, rfl, ?_⟩
      have hother := Text.parenthesis?_other hparen.1 hparen.2 0
      simpa [hbefore, hother, eq_comm] using hcount
    · rw [hlevel] at hnot
      cases hnot
    · exact absurd hclosing hparen.2

end Reading

/-! ## Evaluation -/

namespace Frame

/-- Operands that evaluate alike can stand for each other in a frame. -/
theorem eval_fill_congr {e e' : Expr} (h : ∀ env, e.eval env = e'.eval env) (frame : Frame)
    (env : Environment) : (frame.fill e).eval env = (frame.fill e').eval env := by
  cases frame with
  | monad verb => simp only [fill, Expr.eval, h]
  | dyad verb left => simp only [fill, Expr.eval, h]
  | assign name => simp only [fill, Expr.eval, h]
  | group place => simp only [fill, Expr.eval, h]

theorem eval_complete_congr {stack : List Frame} {e e' whole whole' : Expr}
    (h : ∀ env, e.eval env = e'.eval env) (hwhole : complete stack e = .ok whole)
    (hwhole' : complete stack e' = .ok whole') (env : Environment) :
    whole.eval env = whole'.eval env := by
  induction stack generalizing e e' with
  | nil =>
    cases hwhole
    cases hwhole'
    exact h env
  | cons frame rest ih =>
    cases frame with
    | group place => cases hwhole
    | monad | dyad | assign => exact ih (eval_fill_congr h _) hwhole hwhole'

end Frame

/-! ## The rest of a line as one operand -/

/-- A line that is read so far that an operand is awaited outside all groups goes on with
one expression, and its tree is what the frames make of that expression. -/
theorem exists_right_operand {limit : Nat} {p q : String} {e : Expr} {stack : List Frame}
    (hparse : parse limit (p ++ q) = .ok e)
    (hread : Reading.advance limit .start 0 p.toList = .ok (.operand stack))
    (hopen : Frame.openGroups stack = 0) :
    ∃ right : Expr, right.FitsAbove limit stack.length ∧
      right.text.toList = Text.withoutBlanks q.toList ∧
      Frame.complete stack right = .ok e := by
  have hwhole : Reading.advance limit .start 0 (p ++ q).toList =
      Reading.advance limit (Reading.start.above stack) (0 + Text.byteLength p.toList)
        q.toList := by
    rw [String.toList_append, Reading.advance_append, hread]
    rfl
  cases hrest : Reading.advance limit (Reading.start.above stack)
      (0 + Text.byteLength p.toList) q.toList with
  | error cause =>
    rw [parse, hwhole, hrest] at hparse
    cases hparse
  | ok final =>
    obtain ⟨upper, hupper, rfl⟩ := Reading.advance_above hopen hrest
    rw [parse_eq_of_advance_ok (hwhole.trans hrest)] at hparse
    cases upper with
    | operand inner => cases hparse
    | operator inner left =>
      simp only [Reading.above, Reading.finish, Frame.complete_append] at hparse
      cases hinner : Frame.complete inner left with
      | error cause =>
        rw [hinner] at hparse
        cases hparse
      | ok right =>
        rw [hinner] at hparse
        obtain ⟨⟨hfits, -, hleft⟩, htext⟩ := Reading.advance_start_sound hupper
        obtain ⟨hright, hwritten⟩ := Frame.complete_sound hfits hleft hinner
        have hheight := Frame.StackFits.length_le (Reading.advance_start_sound hread).1
        have hnesting := hright.nesting_le
        exact ⟨right, ⟨hright.canonical, by omega⟩, hwritten.trans htext, hparse⟩

/-- Parentheses around the operand add one level of nesting and nothing else. -/
theorem exists_grouped {limit : Nat} {p q : String} {e : Expr} (hp : Text.BeforeOperand p)
    (hparse : parse limit (p ++ q) = .ok e) :
    ∃ grouped, parse (limit + 1) (p ++ "(" ++ q ++ ")") = .ok grouped ∧
      ∀ env, grouped.eval env = e.eval env := by
  cases hread : Reading.advance limit .start 0 p.toList with
  | error cause =>
    rw [parse_append_of_advance_error hread] at hparse
    cases hparse
  | ok reading =>
    obtain ⟨stack, rfl, hopen⟩ := Reading.operand_of_beforeOperand hp hread
    obtain ⟨right, hright, hwritten, hwhole⟩ := exists_right_operand hparse hread hopen
    obtain ⟨grouped, hgrouped⟩ := Frame.exists_complete hopen (.group right)
    have hlarger := Reading.advance_of_le (Nat.le_succ limit) hread (by simp)
    obtain ⟨hstack, htext⟩ := Reading.advance_start_sound hlarger
    have hgroup : (Expr.group right).FitsAbove (limit + 1) stack.length := by
      have hnesting := hright.nesting_le
      refine ⟨hright.canonical, ?_⟩
      rw [Expr.nesting]
      omega
    obtain ⟨hfits, htree⟩ := Frame.complete_sound hstack hgroup hgrouped
    refine ⟨grouped, parse_complete hfits ?_, ?_⟩
    · have hopening : Text.withoutBlanks "(".toList = ['('] := by decide
      have hclosing : Text.withoutBlanks ")".toList = [')'] := by decide
      have hstackText : Frame.stackText stack = Text.withoutBlanks p.toList := htext
      simp only [String.toList_append, Text.withoutBlanks_append, hopening, hclosing]
      rw [htree, hstackText, Expr.toList_text_group, hwritten]
      simp
    · have hinside (env : Environment) : (Expr.group right).eval env = right.eval env := rfl
      exact Frame.eval_complete_congr hinside hgrouped hwhole

/-- In a line that is accepted with one level to spare, parentheses can be put around all
that follows a verb or `=` outside parentheses, or around the whole line: the line is
still accepted, and has the same value or fails for the same cause, with the same session
after it. -/
theorem explicit_group_changes_nothing {session : Session} {p q : String} {e : Expr}
    (hlimit : 1 ≤ session.limit) (haccepted : parse (session.limit - 1) (p ++ q) = .ok e)
    (hp : Text.BeforeOperand p) :
    (∃ grouped, parse session.limit (p ++ "(" ++ q ++ ")") = .ok grouped) ∧
    session.evalLine (p ++ "(" ++ q ++ ")") = session.evalLine (p ++ q) ∧
    ((∃ value, (session.evalLine (p ++ q)).1 = .value value) ∨
      ∃ cause, (session.evalLine (p ++ q)).1 = .failure (.eval cause)) := by
  obtain ⟨grouped, hgrouped, heval⟩ := exists_grouped hp haccepted
  rw [Nat.sub_add_cancel hlimit] at hgrouped
  have hplain : parse session.limit (p ++ q) = .ok e :=
    parse_of_le (Nat.sub_le _ _) haccepted (by simp)
  refine ⟨⟨grouped, hgrouped⟩, ?_, ?_⟩
  · rw [Session.evalLine_of_parse hgrouped, Session.evalLine_of_parse hplain, heval]
  · rw [Session.evalLine_of_parse hplain]
    rcases e.eval session.env with ⟨cause | value, env⟩
    · exact Or.inr ⟨cause, rfl⟩
    · exact Or.inl ⟨value, rfl⟩

/-- The operand of a verb that has a group on its left; it assigns, and needs all levels but
one. -/
theorem explicit_group_after_group :
    parse 3 ("(1,2)#" ++ "a=~2") =
      .ok (.dyad .hash (.group (.dyad .comma (.noun 1) (.noun 2)))
        (.assign 'a' (.monad .tilde (.noun 2)))) ∧
    (Session.new 4).evalLine ("(1,2)#" ++ "(" ++ "a=~2" ++ ")") =
      (Session.new 4).evalLine ("(1,2)#" ++ "a=~2") := by
  have hparse : parse 3 ("(1,2)#" ++ "a=~2") =
      .ok (.dyad .hash (.group (.dyad .comma (.noun 1) (.noun 2)))
        (.assign 'a' (.monad .tilde (.noun 2)))) := by rfl
  have hp : Text.BeforeOperand "(1,2)#" :=
    Or.inr ⟨"(1,2)", '#', by decide, Or.inl (by decide), by decide⟩
  have hlimit : 1 ≤ (Session.new 4).limit := by decide
  exact ⟨hparse, (explicit_group_changes_nothing hlimit hparse hp).2.1⟩

end ArrayLang
