import ArrayLang.Shape

set_option autoImplicit false

/-!
# The words of the command line

`[FILE] [--max-depth N] [--version] [--help]`.  Words are read from left to
right, and the first that decides the outcome does: a fault makes a usage error,
a request for the version or for help is answered at once.  After `--` every
word is a file name.
-/

namespace ArrayLang.CommandLine

/-- What the words read so far settle. -/
structure Settings where
  /-- the file to read, in place of standard input -/
  file : Option String
  /-- the nesting limit -/
  limit : Option Nat
  deriving DecidableEq, Repr

/-- What the caller wants. -/
inductive Request where
  /-- the version -/
  | version
  /-- the usage -/
  | help
  /-- a session over a file or standard input -/
  | run (settings : Settings)
  /-- nothing that the program understands -/
  | usageError
  deriving DecidableEq, Repr

/-- A number: digits after at most one plus sign, below `2 ^ 64`. -/
def number? (word : String) : Option Nat :=
  let digits := match word.toList with
    | '+' :: rest => rest
    | all => all
  if digits ≠ [] ∧ digits.all Char.isDigit then
    let n := Nat.ofDigitChars 10 digits 0
    if n < countBound then some n else none
  else none

/-- Take a word as the file name; there is one at most, and it is not empty. -/
def Settings.withFile? (settings : Settings) (word : String) : Option Settings :=
  if settings.file.isSome || word.isEmpty then none
  else some { settings with file := some word }

/-- Take a word as the nesting limit; it is given once at most. -/
def Settings.withLimit? (settings : Settings) (word : String) : Option Settings :=
  if settings.limit.isSome then none
  else (number? word).map fun n => { settings with limit := some n }

/-! ## What a word is -/

/-- The part that a word plays among the options. -/
inductive Word where
  /-- `--`, after which there are no options -/
  | endOfOptions
  /-- a request for the version -/
  | version
  /-- a request for help -/
  | help
  /-- `--max-depth`, whose number is the next word -/
  | limit
  /-- `--max-depth=` and its number in one word -/
  | limitIs (number : String)
  /-- an option that does not exist -/
  | unknown
  /-- a file name; a hyphen alone is one -/
  | file
  deriving DecidableEq, Repr

/-- What follows `head` in a text that begins so. -/
def after? (head text : List Char) : Option (List Char) :=
  if head.isPrefixOf text then some (text.drop head.length) else none

/-- Classify what follows two hyphens. -/
def Word.ofLongOption (option : List Char) : Word :=
  if option = [] then endOfOptions
  else if option = "version".toList then version
  else if option = "help".toList then help
  else if option = "max-depth".toList then limit
  else
    match after? "max-depth=".toList option with
    | some number => limitIs (String.ofList number)
    | none => unknown

/-- Classify the letter after a single hyphen; letters after it do not matter,
since the first one decides. -/
def Word.ofLetter (letter : Char) : Word :=
  if letter = 'V' then version
  else if letter = 'h' then help
  else unknown

/-- Classify a word. -/
def Word.ofString (word : String) : Word :=
  match word.toList with
  | [] => file
  | first :: rest =>
    if first = '-' then
      match rest with
      | [] => file
      | second :: option => if second = '-' then ofLongOption option else ofLetter second
    else file

/-! ## Reading the words -/

/-- How far the words are read. -/
inductive Progress where
  /-- an option or a file name may come next -/
  | options (settings : Settings)
  /-- the nesting limit must come next -/
  | limit (settings : Settings)
  /-- only file names may come -/
  | files (settings : Settings)
  /-- the outcome no longer depends on what comes -/
  | decided (request : Request)
  deriving DecidableEq, Repr

namespace Progress

/-- Go on with new settings, or decide for a usage error where there are none. -/
def proceed (next : Settings → Progress) : Option Settings → Progress
  | some settings => next settings
  | none => decided .usageError

/-- Read one word. -/
def step : Progress → String → Progress
  | decided request, _ => decided request
  | limit settings, word => proceed options (settings.withLimit? word)
  | files settings, word => proceed files (settings.withFile? word)
  | options settings, word =>
    match Word.ofString word with
    | .endOfOptions => files settings
    | .version => decided .version
    | .help => decided .help
    | .limit => limit settings
    | .limitIs number => proceed options (settings.withLimit? number)
    | .unknown => decided .usageError
    | .file => proceed options (settings.withFile? word)

/-- There are no more words. -/
def finish : Progress → Request
  | options settings => .run settings
  | files settings => .run settings
  | limit _ => .usageError
  | decided request => request

end Progress

/-- What the words of a command line ask for. -/
def Request.ofWords (words : List String) : Request :=
  (words.foldl Progress.step (.options ⟨none, none⟩)).finish

end ArrayLang.CommandLine
