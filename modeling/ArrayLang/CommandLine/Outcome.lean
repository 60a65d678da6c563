import ArrayLang.CommandLine.File
import ArrayLang.CommandLine.Request
import ArrayLang.Transcript

set_option autoImplicit false

/-!
# What a run of the program comes to

The outcome is a function of the request, of the bytes of the file it names and
of the bytes on standard input.
-/

/-! ## What the program says of itself -/

namespace ArrayLang.Program

/-- The name under which the program announces itself. -/
def name : String := "incunabulum"

/-- The version of the program. -/
def version : String := "0.0.1"

/-- What shows at a terminal that a line is awaited. -/
def prompt : String := "   "

end ArrayLang.Program

/-! ## Outcomes -/

namespace ArrayLang.CommandLine

/-- What a run of the program comes to. -/
structure Outcome where
  /-- the exit code -/
  code : UInt32
  /-- the text on standard output -/
  out : String
  /-- the text on standard error -/
  err : String
  deriving DecidableEq, Repr

/-- How the program is called. -/
def usage : String :=
  "Usage: " ++ Program.name ++ " [OPTIONS] [FILE]\n\n"
    ++ "Arguments:\n"
    ++ "  [FILE]  Read expressions from this file instead of standard input\n\n"
    ++ "Options:\n"
    ++ "      --max-depth <MAX_DEPTH>  Maximum expression nesting depth [default: "
    ++ defaultLimit.repr ++ "]\n"
    ++ "  -h, --help                   Print help\n"
    ++ "  -V, --version                Print version\n"

/-- The session that the settings ask for. -/
def Settings.session (settings : Settings) : Session :=
  .new (settings.limit.getD defaultLimit)

/-- The outcome of a session over a stream. -/
def Outcome.ofTranscript (t : Transcript) : Outcome :=
  if t.complete then ⟨0, t.out, t.err⟩
  else ⟨1, t.out, t.err ++ "Error: " ++ Transcript.undecodable ++ "\n"⟩

/-- The outcome of a request, where `contents` gives the bytes of a file and
`input` is what stands on standard input. -/
def Request.outcome (contents : String → Except FileFault (List UInt8)) (input : List UInt8) :
    Request → Outcome
  | .version => ⟨0, Program.name ++ " " ++ Program.version ++ "\n", ""⟩
  | .help =>
    ⟨0, "Interpreter for a tiny APL/J-style array language\n\n" ++ usage, ""⟩
  | .usageError => ⟨2, "", usage⟩
  | .run settings =>
    match settings.file with
    | none => .ofTranscript (.ofBytes settings.session input)
    | some name =>
      match contents name with
      | .ok bytes => .ofTranscript (.ofBytes settings.session bytes)
      | .error fault => ⟨1, "", fault.report name⟩

end ArrayLang.CommandLine
