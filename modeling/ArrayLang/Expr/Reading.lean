import ArrayLang.Expr.Basic
import ArrayLang.Text

set_option autoImplicit false

/-!
# Reading a line

A line is read from left to right, one non-blank character at a time.  Whatever
waits for an expression to its right is a *frame*; the frames that wait stand on
a stack, innermost first.  The reader either expects an operand or has just read
one, and there is nothing else to remember.  The nesting of a line is the height
of the stack, and the limit is checked whenever a frame is put on it.

Verbs have no precedence: a verb takes everything to its right, up to the end of
its group, as its right operand.
-/

namespace ArrayLang

/-! ## What a character is to the reader

Every non-blank character of a line is a token on its own. -/

/-- The part that a character plays in a line. -/
inductive Token where
  /-- a character that writes a verb -/
  | verb (verb : Verb)
  /-- a decimal digit, with its value -/
  | digit (value : UInt8)
  /-- a letter that names a variable -/
  | letter (name : Char)
  /-- `(` -/
  | opening
  /-- `)` -/
  | closing
  /-- `=` -/
  | equals
  /-- any other character -/
  | other
  deriving DecidableEq, Repr

namespace Token

/-- The value of a decimal digit. -/
def digit? (c : Char) : Option UInt8 :=
  if c.isDigit then some (c.toNat - 48).toUInt8 else none

/-- Classify a character. -/
def ofChar (c : Char) : Token :=
  match Verb.ofChar? c with
  | some v => .verb v
  | none =>
    match digit? c with
    | some d => .digit d
    | none =>
      if Slot.isName c then .letter c
      else if c = '(' then .opening
      else if c = ')' then .closing
      else if c = '=' then .equals
      else .other

end Token

/-! ## Why a line cannot be read

Each cause carries the byte offset in the line that it refers to. -/

/-- Why a line is no expression. -/
inductive ParseError where
  /-- the line ends where an operand must stand -/
  | unexpectedEnd (offset : Nat)
  /-- a character that cannot stand here -/
  | unexpectedChar (found : Char) (offset : Nat)
  /-- a character after an operand that is no part of the language -/
  | unknownVerb (found : Char) (offset : Nat)
  /-- an opening parenthesis that nothing closes -/
  | unclosedGroup (offset : Nat)
  /-- an assignment to something else than a variable -/
  | invalidTarget (offset : Nat)
  /-- more levels of nesting than the limit allows -/
  | tooDeep (limit : Nat) (offset : Nat)
  deriving DecidableEq, Repr

namespace ParseError

/-- The byte offset that the error refers to. -/
def offset : ParseError → Nat
  | unexpectedEnd offset => offset
  | unexpectedChar _ offset => offset
  | unknownVerb _ offset => offset
  | unclosedGroup offset => offset
  | invalidTarget offset => offset
  | tooDeep _ offset => offset

/-- The cause in words. -/
def message : ParseError → String
  | unexpectedEnd offset => "unexpected end of input at offset " ++ offset.repr
  | unexpectedChar found offset =>
    "unexpected character '" ++ String.singleton found ++ "' at offset " ++ offset.repr
  | unknownVerb found offset =>
    "unknown verb '" ++ String.singleton found ++ "' at offset " ++ offset.repr
  | unclosedGroup offset => "unclosed '(' opened at offset " ++ offset.repr
  | invalidTarget offset =>
    "left side of '=' at offset " ++ offset.repr ++ " is not a variable"
  | tooDeep limit offset =>
    "expression nested deeper than " ++ limit.repr ++ " levels at offset " ++ offset.repr

end ParseError

/-! ## The reader -/

/-- An expression with a hole at its right end. -/
inductive Frame where
  /-- a verb that waits for its one operand -/
  | monad (verb : Verb)
  /-- a verb that waits for its right operand -/
  | dyad (verb : Verb) (left : Expr)
  /-- a variable that waits for its value -/
  | assign (name : Char)
  /-- an open parenthesis, at a byte offset -/
  | group (offset : Nat)
  deriving DecidableEq, Repr

namespace Frame

/-- Put an expression into the hole. -/
def fill : Frame → Expr → Expr
  | monad verb, e => .monad verb e
  | dyad verb left, e => .dyad verb left e
  | assign name, e => .assign name e
  | group _, e => .group e

/-- Give an expression to the frames inside the innermost group, and close that
group; the frames outside it remain. -/
def closeGroup? : List Frame → Expr → Option (List Frame × Expr)
  | [], _ => none
  | group _ :: rest, e => some (rest, .group e)
  | frame :: rest, e => closeGroup? rest (frame.fill e)

/-- Give an expression to all frames; a group among them was never closed. -/
def complete : List Frame → Expr → Except ParseError Expr
  | [], e => .ok e
  | group offset :: _, _ => .error (.unclosedGroup offset)
  | frame :: rest, e => complete rest (frame.fill e)

end Frame

/-- How far the reader is. -/
inductive Reading where
  /-- an operand must come next -/
  | operand (stack : List Frame)
  /-- an operand has just been read -/
  | operator (stack : List Frame) (left : Expr)
  deriving DecidableEq, Repr

namespace Reading

/-- Before the first character. -/
def start : Reading := .operand []

/-- Put a frame on the stack, after a character at `offset`, and expect its
operand. -/
def push (limit : Nat) (stack : List Frame) (frame : Frame) (c : Char) (offset : Nat) :
    Except ParseError Reading :=
  if stack.length < limit then .ok (.operand (frame :: stack))
  else .error (.tooDeep limit (offset + c.utf8Size))

/-- Read one non-blank character, which stands at `offset`. -/
def step (limit : Nat) (reading : Reading) (c : Char) (offset : Nat) :
    Except ParseError Reading :=
  match reading with
  | operand stack =>
    match Token.ofChar c with
    | .verb verb => push limit stack (.monad verb) c offset
    | .digit value => .ok (.operator stack (.noun value))
    | .letter name => .ok (.operator stack (.var name))
    | .opening => push limit stack (.group offset) c offset
    | .closing | .equals | .other => .error (.unexpectedChar c offset)
  | operator stack left =>
    match Token.ofChar c with
    | .verb verb => push limit stack (.dyad verb left) c offset
    | .closing =>
      match Frame.closeGroup? stack left with
      | some (outer, group) => .ok (.operator outer group)
      | none => .error (.unexpectedChar c offset)
    | .equals =>
      match left with
      | .var name => push limit stack (.assign name) c offset
      | _ => .error (.invalidTarget offset)
    | .digit _ | .letter _ | .opening => .error (.unexpectedChar c offset)
    | .other => .error (.unknownVerb c offset)

/-- Read the characters from `offset` on, passing over blanks. -/
def advance (limit : Nat) (reading : Reading) (offset : Nat) :
    List Char → Except ParseError Reading
  | [] => .ok reading
  | c :: rest =>
    if Text.isBlank c then advance limit reading (offset + c.utf8Size) rest
    else
      match step limit reading c offset with
      | .ok next => advance limit next (offset + c.utf8Size) rest
      | .error e => .error e

/-- A text is read by reading its first part and then, from there, the rest. -/
theorem advance_append (limit : Nat) (reading : Reading) (offset : Nat) (s t : List Char) :
    advance limit reading offset (s ++ t) =
      match advance limit reading offset s with
      | .ok next => advance limit next (offset + Text.byteLength s) t
      | .error e => .error e := by
  induction s generalizing reading offset with
  | nil => simp [advance]
  | cons c rest ih =>
    simp only [List.cons_append, advance, Text.byteLength_cons, ← Nat.add_assoc]
    split
    · exact ih reading (offset + c.utf8Size)
    · cases step limit reading c offset with
      | ok next => exact ih next (offset + c.utf8Size)
      | error e => rfl

/-- Nothing follows: `offset` is the length of the line in bytes. -/
def finish (reading : Reading) (offset : Nat) : Except ParseError Expr :=
  match reading with
  | operand _ => .error (.unexpectedEnd offset)
  | operator stack left => Frame.complete stack left

end Reading

/-- The nesting limit where none is given. -/
def defaultLimit : Nat := 1000

/-- Read a line, with at most `limit` levels of nesting. -/
def parse (limit : Nat) (line : String) : Except ParseError Expr :=
  match Reading.advance limit .start 0 line.toList with
  | .ok reading => reading.finish line.utf8ByteSize
  | .error e => .error e

end ArrayLang
