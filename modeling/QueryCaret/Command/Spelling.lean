import QueryCaret.Command.Parser

/-!
# Spelling of a command line

The grammar of the arguments of `render`, said without reading any. The arguments are a row of groups,
each an option with its value, the flag for failures of execution, or a query; at the end there may be
a terminator with at most one query after it. An option can be spelled in up to five ways. A line makes
a request when every group may be spelled as it is, and what the groups say together is the request.
-/

set_option autoImplicit false

namespace QueryCaret

/-- Whether a text can stand as a token of its own and be taken for a word: only a lone dash may start
with one. -/
def StandsApart (t : Text) : Prop := t = ['-'] ∨ t.head? ≠ some '-'

/-- The token that ends the options. -/
def terminator : Text := ['-', '-']

theorem Parameter.long_ne_nil (p : Parameter) : p.long ≠ [] := by
  cases p <;> decide

theorem Parameter.equals_notMem_long (p : Parameter) : '=' ∉ p.long := by
  cases p <;> decide

theorem Parameter.short?_ne_dash {p : Parameter} {letter : Char} (h : p.short? = some letter) :
    letter ≠ '-' := by
  cases p <;> simp only [short?, Option.some.injEq, reduceCtorEq] at h <;> subst h <;> decide

/-- Whether the value of an option may stand in a token of its own. A position may be negative. -/
def Parameter.TakesApart (p : Parameter) (value : Text) : Prop :=
  StandsApart value ∨
    p = .position ∧ ∃ digits, value = '-' :: digits ∧ (Text.natural? digits).isSome

/-- How an option and its value are written. -/
inductive Spelling where
  /-- As `--name=value`. -/
  | longEquals
  /-- As `--name value`. -/
  | longApart
  /-- As `-x=value`. -/
  | shortEquals
  /-- As `-xvalue`. -/
  | shortJoined
  /-- As `-x value`. -/
  | shortApart
  deriving DecidableEq, Repr

namespace Spelling

/-- Whether an option with this value can be written so. -/
def Fits (p : Parameter) (value : Text) : Spelling → Prop
  | .longEquals => True
  | .longApart => p.TakesApart value
  | .shortEquals => p.short?.isSome
  | .shortJoined => p.short?.isSome ∧ value ≠ [] ∧ value.head? ≠ some '='
  | .shortApart => p.short?.isSome ∧ p.TakesApart value

/-- The name of an option after its dashes. -/
def longName (p : Parameter) : Text := '-' :: '-' :: p.long

def shortName (p : Parameter) : Text := '-' :: p.short?.toList

theorem shortName_eq {p : Parameter} {letter : Char} (h : p.short? = some letter) :
    shortName p = ['-', letter] := by
  rw [shortName, h, Option.toList_some]

def tokens (p : Parameter) (value : Text) : Spelling → List Text
  | .longEquals => [longName p ++ '=' :: value]
  | .longApart => [longName p, value]
  | .shortEquals => [shortName p ++ '=' :: value]
  | .shortJoined => [shortName p ++ value]
  | .shortApart => [shortName p, value]

end Spelling

inductive Group where
  | option (p : Parameter) (spelling : Spelling) (value : Text)
  | execute
  | query (text : Text)
  deriving DecidableEq, Repr

namespace Group

def tokens : Group → List Text
  | .option p spelling value => spelling.tokens p value
  | .execute => ['-' :: '-' :: Scan.executeName]
  | .query text => [text]

/-- Whether a group may be written as it is. -/
def Legible : Group → Prop
  | .option p spelling value => spelling.Fits p value
  | .execute => True
  | .query text => StandsApart text

/-- The value that a group gives an option. -/
def value? (p : Parameter) : Group → Option Text
  | .option q _ value => if q = p then some value else none
  | .execute | .query _ => none

def query? : Group → Option Text
  | .query text => some text
  | .option .. | .execute => none

end Group

/-- The arguments of `render`, group by group. -/
structure Line where
  groups : List Group
  /-- A terminator, with the query after it if there is one. -/
  ending : Option (Option Text) := none
  deriving DecidableEq, Repr

namespace Line

def tokens (l : Line) : List Text :=
  l.groups.flatMap Group.tokens ++
    match l.ending with
    | none => []
    | some none => [terminator]
    | some (some query) => [terminator, query]

/-- The values that a line gives an option, in order. -/
def values (l : Line) (p : Parameter) : List Text := l.groups.filterMap (Group.value? p)

/-- The queries on a line, in order. -/
def queries (l : Line) : List Text := l.groups.filterMap Group.query? ++ (l.ending.bind id).toList

/-- An option given at most once, with the value it stands for when it is left out. -/
def Given {α : Type} (values : List Text) (read? : Text → Option α) (unsaid a : α) : Prop :=
  values = [] ∧ a = unsaid ∨ ∃ value, values = [value] ∧ read? value = some a

/-- The file that a line takes the query from, if any; its path is not empty. -/
def Opens (l : Line) (file? : Option ByteText) : Prop :=
  l.values .file = [] ∧ file? = none ∨
    ∃ name, name ≠ [] ∧ l.values .file = [name] ∧ file? = some (.ofText name)

/-- The request that a line makes. -/
structure Makes (l : Line) (r : Request) : Prop where
  legible : ∀ g ∈ l.groups, g.Legible
  position : ∃ value, l.values .position = [value] ∧ Text.signed? value = some r.position
  message : l.values .message = [r.message]
  execute : l.groups.count .execute = if r.execute then 1 else 0
  padding : Given (l.values .padding) Text.unsigned? defaultPadding r.padding
  anchor : Given (l.values .anchor) Anchor.ofWord? .trimmed r.anchor
  file : l.Opens r.file?
  query : l.queries = r.argument?.toList
  apart : r.file? = none ∨ r.argument? = none

end Line

namespace Request

/-- The arguments that make a request, every option spelled out. -/
def arguments (r : Request) : List ByteText :=
  let option (p : Parameter) (value : Text) : Text := Spelling.longName p ++ '=' :: value
  [.ofText (option .position (Text.signedDecimal r.position)), .ofText (option .message r.message)]
    ++ (if r.execute then [.ofText ('-' :: '-' :: Scan.executeName)] else [])
    ++ [.ofText (option .padding (Text.decimal r.padding)), .ofText (option .anchor r.anchor.word)]
    ++ r.file?.toList.map (fun path => path.withText (option .file path.text))
    ++ match r.argument? with
      | none => []
      | some text => [.ofText terminator, .ofText text]

/-- The command line that makes a request. -/
def commandLine (r : Request) : List ByteText := .ofText (Command.name .render) :: r.arguments

end Request

end QueryCaret
