import ArrayLang.Proofs.Session
import ArrayLang.Proofs.StreamLines
import ArrayLang.Transcript

set_option autoImplicit false

/-!
# Transcripts of streams

A transcript is made line by line, and a line adds to what is written without looking
at it: what it adds depends on the session and on the text of the line.  So a stream
that is cut between two lines can be read in two runs, the second from the session that
the first leaves behind; and streams whose lines have the same texts have the same
transcript, however their lines end.
-/

namespace ArrayLang.Transcript

/-! ## One transcript after another -/

/-- What is written by one run and then by another, and the state after the second. -/
def followedBy (first second : Transcript) : Transcript where
  out := first.out ++ second.out
  err := first.err ++ second.err
  session := second.session
  complete := second.complete

/-- A line is added behind what is written already. -/
theorem addLine_followedBy (first t : Transcript) (line : List UInt8) :
    (first.followedBy t).addLine line = first.followedBy (t.addLine line) := by
  unfold addLine
  cases hcomplete : t.complete with
  | false => simp [followedBy, hcomplete]
  | true =>
    cases Text.decodeLine? line with
    | none => simp [followedBy, hcomplete]
    | some text => simp [followedBy, hcomplete, String.append_assoc]

theorem foldl_addLine_followedBy (first t : Transcript) (lines : List (List UInt8)) :
    lines.foldl addLine (first.followedBy t) = first.followedBy (lines.foldl addLine t) := by
  induction lines generalizing t with
  | nil => rfl
  | cons line rest ih => rw [List.foldl_cons, List.foldl_cons, addLine_followedBy, ih]

theorem followedBy_begin {t : Transcript} (h : t.complete = true) :
    t.followedBy (begin t.session) = t := by
  obtain ⟨out, err, session, complete⟩ := t
  cases h
  simp [followedBy, begin]

/-- Further lines are read as in a run of their own, from the session that there is. -/
theorem foldl_addLine_of_complete {t : Transcript} (h : t.complete = true)
    (lines : List (List UInt8)) :
    lines.foldl addLine t = t.followedBy (lines.foldl addLine (begin t.session)) := by
  rw [← foldl_addLine_followedBy, followedBy_begin h]

/-- After a line that is not UTF-8 nothing is read. -/
theorem foldl_addLine_of_stopped {t : Transcript} (h : t.complete = false)
    (lines : List (List UInt8)) : lines.foldl addLine t = t := by
  induction lines with
  | nil => rfl
  | cons line rest ih =>
    have hsame : t.addLine line = t := by simp [addLine, h]
    rw [List.foldl_cons, hsame, ih]

/-- Of two streams of which the first ends with a line, the transcript is that of the
first followed by that of the second, begun with the session that the first leaves
behind.  If the first stops at a line that is not UTF-8, the second is not read. -/
theorem transcript_of_joined_streams (session : Session) (first second : List UInt8)
    (h : first = [] ∨ first.getLast? = some Text.lineFeed) :
    ((ofBytes session first).complete = true →
      ofBytes session (first ++ second) =
        (ofBytes session first).followedBy (ofBytes (ofBytes session first).session second)) ∧
    ((ofBytes session first).complete = false →
      ofBytes session (first ++ second) = ofBytes session first) := by
  have hlines : ofBytes session (first ++ second) =
      (Text.splitLines second).foldl addLine (ofBytes session first) := by
    rw [ofBytes, Text.splitLines_append h, List.foldl_append, ofBytes]
  rw [hlines]
  exact ⟨fun hcomplete => foldl_addLine_of_complete hcomplete _,
    fun hstopped => foldl_addLine_of_stopped hstopped _⟩

/-- The line `a=1` before two lines of which the second is not UTF-8, and the same two
lines, with a line feed at their end, before the line `1`. -/
theorem transcript_of_joined_streams_around_bad_line :
    ((ofBytes (.new 9) [97, 61, 49, 10]).complete = true ∧
      ofBytes (.new 9) ([97, 61, 49, 10] ++ [97, 10, 255]) =
        (ofBytes (.new 9) [97, 61, 49, 10]).followedBy
          (ofBytes (ofBytes (.new 9) [97, 61, 49, 10]).session [97, 10, 255])) ∧
    (ofBytes (.new 9) [97, 10, 255, 10]).complete = false ∧
      ofBytes (.new 9) ([97, 10, 255, 10] ++ [49, 10]) = ofBytes (.new 9) [97, 10, 255, 10] := by
  have hcomplete : (ofBytes (.new 9) [97, 61, 49, 10]).complete = true := by rfl
  have hstopped : (ofBytes (.new 9) [97, 10, 255, 10]).complete = false := by rfl
  refine ⟨⟨hcomplete, ?_⟩, hstopped, ?_⟩
  · exact (transcript_of_joined_streams (.new 9) _ _ (Or.inr rfl)).1 hcomplete
  · exact (transcript_of_joined_streams (.new 9) _ _ (Or.inr rfl)).2 hstopped

/-! ## Texts of lines -/

theorem addLine_congr {line other : List UInt8}
    (h : Text.decodeLine? line = Text.decodeLine? other) (t : Transcript) :
    t.addLine line = t.addLine other := by
  rw [addLine, h, addLine]

/-- Lines with the same texts make the same transcript. -/
theorem foldl_addLine_congr {lines others : List (List UInt8)}
    (h : lines.map Text.decodeLine? = others.map Text.decodeLine?) (t : Transcript) :
    lines.foldl addLine t = others.foldl addLine t := by
  induction lines generalizing others t with
  | nil =>
    cases others with
    | nil => rfl
    | cons other others => cases h
  | cons line lines ih =>
    cases others with
    | nil => cases h
    | cons other others =>
      obtain ⟨hline, hrest⟩ := List.cons.inj h
      rw [List.foldl_cons, List.foldl_cons, addLine_congr hline, ih hrest]

/-- An empty line writes nothing and leaves the session as it is. -/
theorem addLine_lineFeed (t : Transcript) : t.addLine [Text.lineFeed] = t := by
  have htext : Text.decodeLine? [Text.lineFeed] = some "" :=
    (Text.decodeLine?_eq_some_iff _ _).2 ⟨['\n'], rfl, rfl⟩
  obtain ⟨out, err, session, complete⟩ := t
  have hblank : session.evalLine "" = (.blank, session) := rfl
  cases complete with
  | false => rfl
  | true => simp [addLine, htext, hblank, outText, errText]

/-- How its lines end makes no difference to the transcript of a stream: neither do
carriage returns before its line feeds, however many before each, nor does a line feed
after its last line. -/
theorem transcript_ignores_terminators (session : Session) (bytes : List UInt8) :
    (∀ count : Nat → Nat,
      ofBytes session (Text.insertReturns count bytes) = ofBytes session bytes) ∧
    ofBytes session (bytes ++ [Text.lineFeed]) = ofBytes session bytes := by
  constructor
  · intro count
    exact foldl_addLine_congr (Text.texts_insertReturns count bytes) _
  · rcases Text.texts_append_singleton bytes with h | h
    · exact foldl_addLine_congr h _
    · have hlines : (Text.splitLines (bytes ++ [Text.lineFeed])).map Text.decodeLine? =
          (Text.splitLines bytes ++ [[Text.lineFeed]]).map Text.decodeLine? := by
        rw [List.map_append]
        exact h
      rw [ofBytes, foldl_addLine_congr hlines, List.foldl_append]
      exact addLine_lineFeed _

end ArrayLang.Transcript
