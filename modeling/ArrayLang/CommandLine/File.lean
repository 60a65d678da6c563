import ArrayLang.Text

set_option autoImplicit false

/-!
# Files

What the program learns of a file is its bytes or a fault.  `Directory` says what
it learns where the working directory holds files only: a path is walked name by
name, and every name before the last one must be that of a directory.
-/

namespace ArrayLang.CommandLine

/-! ## Faults -/

/-- An error of the operating system. -/
structure SystemError where
  /-- the system's own words -/
  text : String
  /-- the system's number for it -/
  code : Nat
  deriving DecidableEq, Repr

namespace SystemError

/-- There is nothing of that name. -/
def notFound : SystemError := ⟨"No such file or directory", 2⟩

/-- A path goes on below a file. -/
def notDirectory : SystemError := ⟨"Not a directory", 20⟩

/-- Bytes are wanted of a directory. -/
def isDirectory : SystemError := ⟨"Is a directory", 21⟩

/-- A name, or a whole path, is longer than the system allows. -/
def nameTooLong : SystemError := ⟨"File name too long", 36⟩

/-- Words and number. -/
def message (e : SystemError) : String := e.text ++ " (os error " ++ e.code.repr ++ ")"

end SystemError

/-- Why the bytes of a file cannot be had. -/
inductive FileFault where
  /-- the file cannot be opened -/
  | opening (cause : SystemError)
  /-- the file is open and cannot be read -/
  | reading (cause : SystemError)
  deriving DecidableEq, Repr

/-- What the program says of a file that it cannot read. -/
def FileFault.report (name : String) : FileFault → String
  | opening cause =>
    "Error: failed to open " ++ name ++ "\n\nCaused by:\n    " ++ cause.message ++ "\n"
  | reading cause => "Error: " ++ cause.message ++ "\n"

/-! ## Paths -/

/-- Where a path has led so far. -/
inductive Place where
  /-- the working directory -/
  | here
  /-- a directory above it, of which nothing is known -/
  | above
  /-- a file with its bytes -/
  | file (bytes : List UInt8)
  deriving DecidableEq, Repr

/-- The names of a path, in order; an empty name stands where two slashes meet,
and at an end that has one. -/
def pathNames (path : List Char) : List (List Char) :=
  path.foldr
    (fun c names =>
      if c = '/' then [] :: names
      else
        match names with
        | [] => [[c]]
        | name :: rest => (c :: name) :: rest)
    [[]]

/-- The longest name, in bytes. -/
def maxName : Nat := 255

/-- The longest path, in bytes. -/
def maxPath : Nat := 4095

/-- The files of a working directory that holds nothing else, by name. -/
structure Directory where
  files : List (String × List UInt8)
  deriving DecidableEq, Repr

namespace Directory

/-- Follow one name of a path. -/
def enter (directory : Directory) : Place → List Char → Except SystemError Place
  | .file _, _ => .error .notDirectory
  | place, [] => .ok place
  | place, ['.'] => .ok place
  | _, ['.', '.'] => .ok .above
  | place, name =>
    if maxName < Text.byteLength name then .error .nameTooLong
    else
      match place, directory.files.lookup (String.ofList name) with
      | .here, some bytes => .ok (.file bytes)
      | _, _ => .error .notFound

/-- Follow a path; one that begins with a slash does not begin here. -/
def follow (directory : Directory) (path : List Char) : Except SystemError Place :=
  if maxPath < Text.byteLength path then .error .nameTooLong
  else
    (pathNames path).foldlM directory.enter (if path.head? = some '/' then .above else .here)

/-- The bytes at the end of a path; a directory can be opened and not read. -/
def contents (directory : Directory) (path : String) : Except FileFault (List UInt8) :=
  match directory.follow path.toList with
  | .ok (.file bytes) => .ok bytes
  | .ok .here => .error (.reading .isDirectory)
  | .ok .above => .error (.reading .isDirectory)
  | .error cause => .error (.opening cause)

end Directory

end ArrayLang.CommandLine
