import ArrayLang.Session
import ArrayLang.Text
import ArrayLang.Value.Render

set_option autoImplicit false

/-!
# Transcripts

A transcript is what a session writes while it reads lines from a stream of
bytes: values on one text, errors on another.  Each value is followed by a line
feed of its own, each error stands on one line.  A line that is not UTF-8 ends
the transcript.
-/

namespace ArrayLang

/-- What was written, and the session afterwards. -/
structure Transcript where
  /-- the values -/
  out : String
  /-- the errors -/
  err : String
  session : Session
  /-- every line was UTF-8 -/
  complete : Bool
  deriving DecidableEq, Repr

namespace Transcript

/-- Nothing written yet. -/
def begin (session : Session) : Transcript := ⟨"", "", session, true⟩

/-- What an answer adds to the values. -/
def outText : Answer → String
  | .value value => value.render ++ "\n"
  | .blank | .failure _ => ""

/-- What an answer adds to the errors. -/
def errText : Answer → String
  | .failure cause => "error: " ++ cause.message ++ "\n"
  | .blank | .value _ => ""

/-- Evaluate one line of the stream; nothing happens once a line was not UTF-8. -/
def addLine (t : Transcript) (line : List UInt8) : Transcript :=
  if t.complete then
    match Text.decodeLine? line with
    | none => { t with complete := false }
    | some text =>
      let (answer, next) := t.session.evalLine text
      { t with
        out := t.out ++ outText answer
        err := t.err ++ errText answer
        session := next }
  else t

/-- What reading fails with at a line that is not UTF-8. -/
def undecodable : String := "stream did not contain valid UTF-8"

/-- The transcript of a whole stream. -/
def ofBytes (session : Session) (bytes : List UInt8) : Transcript :=
  (Text.splitLines bytes).foldl addLine (begin session)

end Transcript

end ArrayLang
