import QueryCaret.Command.Draft
import QueryCaret.Command.Token

/-!
# Reading a command line

The arguments of `render` are read from left to right. An option whose value stands in a token of its
own, and the query, are put into the draft only when the next argument has been recognized: an argument
that nobody knows is reported before a value that cannot be read. After the terminator every token is
a word for the query.

A command line starts with a command. Besides `render` there is `help`, alone or with the name of a
command.
-/

set_option autoImplicit false

namespace QueryCaret

/-- An argument that has been recognized and is not in the draft yet. -/
inductive Pending where
  | nothing
  /-- The value of this option is to come in the next token. -/
  | expecting (p : Parameter)
  | given (p : Parameter) (v : ByteText)
  | query (v : ByteText)
  deriving DecidableEq

/-- How far the arguments of a request have been read. -/
structure Scan where
  draft : Draft := {}
  pending : Pending := .nothing
  deriving DecidableEq

namespace Scan

/-- The draft with what was pending. -/
def settle (s : Scan) : Except Usage Draft :=
  match s.pending with
  | .nothing => .ok s.draft
  | .expecting _ => .error .invalidValue
  | .given p v => s.draft.put p v
  | .query v => s.draft.putQuery v

/-- Whether the query has been given. -/
def hasQuery (s : Scan) : Bool :=
  match s.pending with
  | .query _ => true
  | _ => s.draft.query.isSome

/-- An option without a value in its own token. -/
def expect (s : Scan) (p : Parameter) : Except Usage Scan := do
  return ⟨← s.settle, .expecting p⟩

/-- An option with a value in its own token. -/
def attached (s : Scan) (p : Parameter) (v : ByteText) : Except Usage Scan := do
  return ⟨← (← s.settle).put p v, .nothing⟩

def execute (s : Scan) : Except Usage Scan := do
  return ⟨← (← s.settle).putExecute, .nothing⟩

def help (s : Scan) : Except Usage Scan := do
  let _ ← s.settle
  .error .help

/-- A word that is no value. -/
def word (s : Scan) (v : ByteText) : Except Usage Scan :=
  if s.hasQuery then .error .unknownArgument
  else do return ⟨← s.settle, .query v⟩

/-- The name of the flag that makes a failure one of execution. -/
def executeName : Text := "execute".toList

/-- The name of the flag that asks for help. -/
def helpName : Text := "help".toList

/-- A flag takes no value. -/
def flag (value : Option ByteText) (act : Except Usage Scan) : Except Usage Scan :=
  if value.isSome then .error .unneededValue else act

def long (s : Scan) (name : Text) (value : Option ByteText) : Except Usage Scan :=
  match Parameter.ofLong? name with
  | some p =>
    match value with
    | some v => s.attached p v
    | none => s.expect p
  | none =>
    if name = executeName then flag value s.execute
    else if name = helpName then flag value s.help
    else .error .unknownArgument

/-- The value attached to a short option: what follows its letter, without one equals sign. -/
def attachedToShort (rest : ByteText) : Option ByteText :=
  match rest.text with
  | '=' :: v => some (rest.withText v)
  | _ => if rest = .ofText [] then none else some rest

def short (s : Scan) (letter : Char) (rest : ByteText) : Except Usage Scan :=
  match Parameter.ofShort? letter with
  | some p =>
    match attachedToShort rest with
    | some v => s.attached p v
    | none => s.expect p
  | none => if letter = 'h' then s.help else .error .unknownArgument

/-- Whether a cluster is a negative number that the position is waiting for. -/
def takesAsNumber (s : Scan) (token : ByteText) : Bool :=
  s.pending = .expecting .position && (token.text?.map (looksNumeric ∘ List.tail)).getD false

/-- Reads a token that is not the terminator. -/
def read (s : Scan) (token : ByteText) : Except Usage Scan :=
  match Token.ofBytes token with
  | .long (some name) value => s.long name value
  | .long none _ => .error .unknownArgument
  | .short letter rest =>
    if s.takesAsNumber token then .ok { s with pending := .given .position token }
    else match letter with
      | some letter => s.short letter rest
      | none => .error .unknownArgument
  | .word | .terminator =>
    match s.pending with
    | .expecting p => .ok { s with pending := .given p token }
    | _ => s.word token

/-- Reads the arguments up to the terminator and the words after it. -/
def readAll (s : Scan) : List ByteText → Except Usage Scan
  | [] => .ok s
  | token :: later =>
    if Token.ofBytes token = .terminator then later.foldlM word s
    else do (← s.read token).readAll later

end Scan

/-- The request that the arguments of `render` make. -/
def Request.ofArguments (arguments : List ByteText) : Except Usage Request := do
  (← (← Scan.readAll {} arguments).settle).finish

inductive Command where
  | render | help
  deriving DecidableEq, Repr

namespace Command

def name : Command → Text
  | .render => "render".toList
  | .help => "help".toList

def ofWord? (w : ByteText) : Option Command :=
  w.text?.bind fun s => [render, help].find? fun c => c.name = s

/-- `help` takes the name of one command, or nothing. -/
def helpOn : List ByteText → Usage
  | [] => .help
  | [w] => if (ofWord? w).isSome then .help else .unknownCommand
  | _ => .unknownCommand

/-- What the program says to an option that stands before any command. -/
def leadingOption (name : Text) (value : Option ByteText) : Usage :=
  if name = "help".toList then if value.isSome then .unneededValue else .help
  else if name = "version".toList then if value.isSome then .unneededValue else .version
  else .unknownArgument

def leadingLetter : Char → Usage
  | 'h' => .help
  | 'V' => .version
  | _ => .unknownArgument

end Command

/-- The request that a command line makes. -/
def Request.ofCommandLine : List ByteText → Except Usage Request
  | [] => .error .noCommand
  | token :: later =>
    match Token.ofBytes token with
    | .long (some name) value => .error (Command.leadingOption name value)
    | .long none _ => .error .unknownArgument
    | .short (some letter) _ => .error (Command.leadingLetter letter)
    | .short none _ => .error .unknownArgument
    | .terminator =>
      match later with
      | [] => .error .noCommand
      | w :: _ =>
        .error (if (Command.ofWord? w).isSome then .unknownArgument else .unknownCommand)
    | .word =>
      match Command.ofWord? token with
      | some .render => Request.ofArguments later
      | some .help => .error (Command.helpOn later)
      | none => .error .unknownCommand

end QueryCaret
