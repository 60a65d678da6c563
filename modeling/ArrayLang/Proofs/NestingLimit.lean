import ArrayLang.Proofs.ReadingPrefix
import Mathlib.Data.Nat.Find

set_option autoImplicit false

/-!
# The limit of nesting

The limit enters a reading at one place only, where a frame is put on the stack.  So
a reading that does not end for want of levels is the same under every larger limit,
and each line has a number of levels from which on the limit does not matter.  Every
frame was put there by a character of its own: the line never needs more levels than
it has characters that open one.
-/

namespace ArrayLang

/-- The number of characters of a text that open a level of nesting. -/
def Text.levels (text : List Char) : Nat := text.countP opensLevel

@[simp] theorem Text.levels_append (s t : List Char) : levels (s ++ t) = levels s + levels t :=
  List.countP_append

/-- A character takes at least one byte. -/
theorem Text.levels_le_byteLength (text : List Char) : levels text ≤ byteLength text := by
  have hlength : text.length ≤ byteLength text := by
    induction text with
    | nil => simp
    | cons c rest ih =>
      have hpos := c.utf8Size_pos
      rw [List.length_cons, byteLength_cons]
      omega
  exact Nat.le_trans List.countP_le_length hlength

namespace Reading

/-! ## Depth and characters -/

/-- One character deepens a reading by at most one level, and only if it opens one. -/
theorem step_depth {limit : Nat} {reading next : Reading} {c : Char} {offset : Nat}
    (h : step limit reading c offset = .ok next) :
    next.stack.length ≤ reading.stack.length + Text.levels [c] := by
  rcases step_ok_cases h with ⟨frame, rfl, -, hlevel, -⟩ | ⟨e, rfl, -, -⟩ |
    ⟨left, outer, closed, rfl, -, hclose⟩
  · simp [Text.levels, hlevel]
  · simp
  · obtain ⟨inner, place, hstack, -⟩ := Frame.closeGroup?_innermost hclose
    rw [hstack, stack_operator, List.length_append, List.length_cons]
    omega

/-- The depth is at most the number of characters read that open a level. -/
theorem Reaches.depth_le {limit : Nat} {done : List Char} {reading : Reading} {offset : Nat}
    (h : Reaches limit done reading offset) : reading.stack.length ≤ Text.levels done := by
  induction h with
  | start => simp [Reading.start]
  | blank _ _ ih =>
    rw [Text.levels_append]
    omega
  | read _ _ hstep ih =>
    have hdepth := step_depth hstep
    rw [Text.levels_append]
    omega

/-! ## Larger limits -/

theorem push_of_le {limit larger : Nat} (hle : limit ≤ larger) {stack : List Frame}
    {frame : Frame} {c : Char} {offset : Nat} {result : Except ParseError Reading}
    (h : push limit stack frame c offset = result)
    (hdeep : ∀ bound place, result ≠ .error (.tooDeep bound place)) :
    push larger stack frame c offset = result := by
  subst h
  unfold push at hdeep ⊢
  split at hdeep
  · rename_i hlt
    rw [if_pos hlt, if_pos (Nat.lt_of_lt_of_le hlt hle)]
  · exact absurd rfl (hdeep _ _)

/-- A step that does not fail for want of levels is the same under a larger limit. -/
theorem step_of_le {limit larger : Nat} (hle : limit ≤ larger) {reading : Reading} {c : Char}
    {offset : Nat} {result : Except ParseError Reading}
    (h : step limit reading c offset = result)
    (hdeep : ∀ bound place, result ≠ .error (.tooDeep bound place)) :
    step larger reading c offset = result := by
  cases reading with
  | operand stack =>
    simp only [step] at h ⊢
    split at h
    · exact push_of_le hle h hdeep
    · exact h
    · exact h
    · exact push_of_le hle h hdeep
    all_goals exact h
  | operator stack left =>
    simp only [step] at h ⊢
    split at h
    · exact push_of_le hle h hdeep
    · exact h
    · split at h
      · exact push_of_le hle h hdeep
      · exact h
    all_goals exact h

theorem advance_of_le {limit larger : Nat} (hle : limit ≤ larger) {chars : List Char}
    {reading : Reading} {offset : Nat} {result : Except ParseError Reading}
    (h : advance limit reading offset chars = result)
    (hdeep : ∀ bound place, result ≠ .error (.tooDeep bound place)) :
    advance larger reading offset chars = result := by
  induction chars generalizing reading offset with
  | nil => exact h
  | cons c rest ih =>
    rw [advance] at h ⊢
    split at h
    · rename_i hblank
      rw [if_pos hblank]
      exact ih h
    · rename_i hblank
      rw [if_neg hblank]
      split at h
      · rename_i next hstep
        rw [step_of_le hle hstep (by simp)]
        exact ih h
      · rename_i cause hstep
        rw [step_of_le hle hstep (by rwa [h])]
        exact h

end Reading

/-! ## The threshold of a line -/

theorem parse_of_le {limit larger : Nat} (hle : limit ≤ larger) {line : String}
    {result : Except ParseError Expr} (h : parse limit line = result)
    (hdeep : ∀ bound place, result ≠ .error (.tooDeep bound place)) :
    parse larger line = result := by
  subst h
  cases hread : Reading.advance limit .start 0 line.toList with
  | ok reading =>
    have hlarger := Reading.advance_of_le hle hread (by simp)
    rw [parse_eq_of_advance_ok hread, parse_eq_of_advance_ok hlarger]
  | error cause =>
    have hparse : parse limit line = .error cause := by rw [parse, hread]
    have hlarger : Reading.advance larger .start 0 line.toList = .error cause := by
      apply Reading.advance_of_le hle hread
      intro bound place hcause
      rw [Except.error.inj hcause] at hparse
      exact hdeep bound place hparse
    rw [hparse, parse, hlarger]

/-- Where the limit is passed, more characters that open a level have been read than the
limit allows; and it is this limit that the error names. -/
theorem lt_levels_of_parse_tooDeep {limit bound place : Nat} {line : String}
    (h : parse limit line = .error (.tooDeep bound place)) :
    bound = limit ∧ limit < Text.levels line.toList := by
  rcases parse_error_cases h with ⟨hincomplete, -⟩ | ⟨-, hread⟩
  · cases hincomplete
  · obtain ⟨before, c, after, mid, hline, -, hbefore, hstep⟩ := Reading.advance_error hread
    have hdepth := (Reading.reaches_iff.2 ⟨hbefore, rfl⟩).depth_le
    rcases Reading.step_error_cases hstep with hcause | ⟨hcause, -⟩ | ⟨hcause, -⟩ |
      ⟨hcause, hlevel, hlimit⟩
    · cases hcause
    · cases hcause
    · cases hcause
    · cases hcause
      refine ⟨rfl, ?_⟩
      have hone : 1 ≤ Text.levels (c :: after) := by simp [Text.levels, hlevel]
      rw [hline, Text.levels_append]
      omega

/-- The limit is not what the line fails for, if it fails. -/
def leavesRoom (line : String) (limit : Nat) : Bool :=
  match parse limit line with
  | .error (.tooDeep _ _) => false
  | _ => true

theorem leavesRoom_iff (line : String) (limit : Nat) :
    leavesRoom line limit = true ↔
      ∀ bound place, parse limit line ≠ .error (.tooDeep bound place) := by
  unfold leavesRoom
  split
  · rename_i bound place h
    simp [h]
  · rename_i h
    simpa using h

theorem leavesRoom_levels (line : String) :
    leavesRoom line (Text.levels line.toList) = true := by
  rw [leavesRoom_iff]
  intro bound place h
  exact Nat.lt_irrefl _ (lt_levels_of_parse_tooDeep h).2

theorem exists_leavesRoom (line : String) : ∃ limit, leavesRoom line limit = true :=
  ⟨_, leavesRoom_levels line⟩

/-- The least limit that leaves room for the line. -/
def levelsNeeded (line : String) : Nat := Nat.find (exists_leavesRoom line)

theorem levelsNeeded_le (line : String) : levelsNeeded line ≤ Text.levels line.toList :=
  Nat.find_min' _ (leavesRoom_levels line)

/-- For every line there is a number of levels, at most that of its characters that open
one, below which the limit makes the line too deep and from which on the limit makes no
difference.  Wherever the reader comes, under any limit, it is at most as deep as it has
read characters that open a level; so the next level, counted when one more of them is
read, is at most the length of the line. -/
theorem nesting_limit_is_threshold (line : String) :
    (∃ needed, needed ≤ Text.levels line.toList ∧
      (∀ limit < needed, ∃ place, parse limit line = .error (.tooDeep limit place)) ∧
      ∃ result, (∀ bound place, result ≠ .error (.tooDeep bound place)) ∧
        ∀ limit ≥ needed, parse limit line = result) ∧
    (∀ (limit : Nat) (done rest : String) (reading : Reading) (offset : Nat),
      line = done ++ rest → Reading.Reaches limit done.toList reading offset →
        reading.stack.length ≤ Text.levels done.toList) ∧
    ∀ (limit : Nat) (done rest : String) (c : Char) (reading : Reading) (offset : Nat),
      line = done ++ String.singleton c ++ rest →
      Reading.Reaches limit done.toList reading offset → Text.opensLevel c = true →
        reading.stack.length + 1 ≤ Text.levels (done.toList ++ [c]) ∧
        (line.utf8ByteSize < UInt64.size → reading.stack.length + 1 < UInt64.size) := by
  refine ⟨⟨levelsNeeded line, levelsNeeded_le line, ?_, ?_⟩, ?_, ?_⟩
  · intro limit hlt
    have hnot := Nat.find_min (exists_leavesRoom line) hlt
    rw [leavesRoom_iff] at hnot
    push Not at hnot
    obtain ⟨bound, place, h⟩ := hnot
    obtain ⟨rfl, -⟩ := lt_levels_of_parse_tooDeep h
    exact ⟨place, h⟩
  · have hroom := (leavesRoom_iff _ _).1 (Nat.find_spec (exists_leavesRoom line))
    exact ⟨parse (levelsNeeded line) line, hroom, fun limit hle => parse_of_le hle rfl hroom⟩
  · intro limit done rest reading offset _ h
    exact h.depth_le
  · intro limit done rest c reading offset hline h hlevel
    have hdepth : reading.stack.length + 1 ≤ Text.levels (done.toList ++ [c]) := by
      have hone : Text.levels [c] = 1 := by simp [Text.levels, hlevel]
      rw [Text.levels_append, hone]
      exact Nat.succ_le_succ h.depth_le
    refine ⟨hdepth, ?_⟩
    intro hsize
    have hbytes : Text.byteLength (done.toList ++ [c]) ≤ line.utf8ByteSize := by
      rw [hline, Text.utf8ByteSize_eq]
      simp
    have hlevels := Text.levels_le_byteLength (done.toList ++ [c])
    omega

/-- Two levels deep in a group that is closed before the line goes wrong, with the largest
limit that fits in 64 bits. -/
theorem nesting_limit_two_levels_deep :
    Reading.Reaches (UInt64.size - 1) "(1+".toList
      (.operand [.dyad .plus (.noun 1), .group 0]) 3 ∧
    2 ≤ Text.levels "(1+".toList ∧ 2 + 1 ≤ Text.levels "(1+~".toList ∧ 2 + 1 < UInt64.size := by
  have hreach : Reading.Reaches (UInt64.size - 1) "(1+".toList
      (.operand [.dyad .plus (.noun 1), .group 0]) 3 := Reading.reaches_iff.2 ⟨by rfl, by rfl⟩
  have hsplit : "(1+~2)+3)" = "(1+" ++ "~2)+3)" := by decide
  have hnext : "(1+~2)+3)" = "(1+" ++ String.singleton '~' ++ "2)+3)" := by decide
  obtain ⟨-, hdepth, hdeeper⟩ := nesting_limit_is_threshold "(1+~2)+3)"
  obtain ⟨hlevels, hfits⟩ := hdeeper _ "(1+" "2)+3)" '~' _ 3 hnext hreach (by decide)
  exact ⟨hreach, hdepth _ "(1+" "~2)+3)" _ 3 hsplit hreach, hlevels, hfits (by decide)⟩

end ArrayLang
