import ArrayLang.CommandLine.Outcome

set_option autoImplicit false

/-!
# The program

Reads the words of the command line and the bytes they ask for, and writes what
`CommandLine.Request.outcome` says.  At a terminal the lines are answered one at
a time.
-/

namespace ArrayLang.CommandLine

/-- The system error behind a failed operation. -/
def systemError : IO.Error → SystemError
  | .noFileOrDirectory _ code details => ⟨details, code.toNat⟩
  | .permissionDenied _ code details => ⟨details, code.toNat⟩
  | .inappropriateType _ code details => ⟨details, code.toNat⟩
  | .invalidArgument _ code details => ⟨details, code.toNat⟩
  | .resourceExhausted _ code details => ⟨details, code.toNat⟩
  | .hardwareFault code details => ⟨details, code.toNat⟩
  | .otherError code details => ⟨details, code.toNat⟩
  | e => ⟨e.toString, 0⟩

/-- The bytes of a file. -/
def readContents (name : String) : IO (Except FileFault (List UInt8)) := do
  match ← (IO.FS.Handle.mk name .read).toBaseIO with
  | .error e => return .error (.opening (systemError e))
  | .ok handle =>
    match ← handle.readBinToEnd.toBaseIO with
    | .error e => return .error (.reading (systemError e))
    | .ok bytes => return .ok bytes.toList

/-- Write an outcome and hand on its exit code. -/
def deliver (o : Outcome) : IO UInt32 := do
  let output ← IO.getStdout
  output.putStr o.out
  output.flush
  IO.eprint o.err
  return o.code

/-- Answer the lines typed at a terminal until its input ends. -/
partial def converse (session : Session) : IO Unit := do
  let output ← IO.getStdout
  output.putStr Program.prompt
  output.flush
  let line ← (← IO.getStdin).getLine
  unless line.isEmpty do
    let (answer, next) := session.evalLine (Text.chomp line)
    output.putStr (Transcript.outText answer)
    output.flush
    IO.eprint (Transcript.errText answer)
    converse next

end ArrayLang.CommandLine

open ArrayLang.CommandLine in
/-- Run the program on the words after its name. -/
def main (words : List String) : IO UInt32 := do
  let request := Request.ofWords words
  let input ← IO.getStdin
  match request with
  | .run ⟨some name, _⟩ =>
    let contents ← readContents name
    deliver (request.outcome (fun _ => contents) [])
  | .run settings =>
    if ← input.isTty then
      converse settings.session
      return 0
    else
      let bytes ← input.readBinToEnd
      deliver (request.outcome (fun _ => .ok []) bytes.toList)
  | _ => deliver (request.outcome (fun _ => .ok []) [])
