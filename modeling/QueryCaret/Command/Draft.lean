import QueryCaret.Command.Request
import QueryCaret.Command.Usage
import QueryCaret.Text.Numeral

/-!
# Drafts

A request takes shape option by option. A draft holds what has been given so far; each option goes in
once, and its value has to be what the option takes. That it stands there already is found out before
its value is looked at. A finished draft has a position and a message, and at most one place to take
the query from.
-/

set_option autoImplicit false

namespace QueryCaret

/-- An option that takes a value. -/
inductive Parameter where
  | position | message | padding | anchor | file
  deriving DecidableEq, Repr

namespace Parameter

def all : List Parameter := [.position, .message, .padding, .anchor, .file]

/-- The name that stands after two dashes. -/
def long : Parameter → Text
  | .position => "position".toList
  | .message => "message".toList
  | .padding => "padding".toList
  | .anchor => "anchor".toList
  | .file => "file".toList

/-- The letter that stands after one dash. -/
def short? : Parameter → Option Char
  | .position => some 'p'
  | .message => some 'm'
  | .file => some 'f'
  | .padding | .anchor => none

def ofLong? (name : Text) : Option Parameter := all.find? fun p => p.long = name

def ofShort? (letter : Char) : Option Parameter := all.find? fun p => p.short? = some letter

theorem ofLong?_long (p : Parameter) : ofLong? p.long = some p := by
  cases p <;> decide

theorem ofShort?_short {p : Parameter} {letter : Char} (h : p.short? = some letter) :
    ofShort? letter = some p := by
  cases p <;> simp only [short?, Option.some.injEq, reduceCtorEq] at h <;> subst h <;> decide

theorem ofLong?_eq_some_iff {name : Text} {p : Parameter} : ofLong? name = some p ↔ p.long = name := by
  constructor
  · intro found
    have named := List.find?_some (p := fun p : Parameter => decide (p.long = name)) found
    exact of_decide_eq_true named
  · rintro rfl
    exact ofLong?_long p

theorem ofShort?_eq_some_iff {letter : Char} {p : Parameter} :
    ofShort? letter = some p ↔ p.short? = some letter := by
  constructor
  · intro found
    have named := List.find?_some (p := fun p : Parameter => decide (p.short? = some letter)) found
    exact of_decide_eq_true named
  · exact ofShort?_short

end Parameter

namespace Value

def text (v : ByteText) : Except Usage Text :=
  match v.text? with
  | none => .error .notUtf8
  | some s => .ok s

/-- A number in the notation of the given reader. -/
def number {α : Type} (read? : Text → Option α) (v : ByteText) : Except Usage α := do
  match read? (← text v) with
  | none => .error .malformedNumber
  | some n => .ok n

def anchor (v : ByteText) : Except Usage Anchor :=
  match v.text?.bind Anchor.ofWord? with
  | none => .error .invalidValue
  | some a => .ok a

/-- A path need not be text, but it cannot be empty. -/
def path (v : ByteText) : Except Usage ByteText :=
  if v = .ofText [] then .error .invalidValue else .ok v

end Value

structure Draft where
  position : Option Int := none
  message : Option Text := none
  execute : Bool := false
  padding : Option Nat := none
  anchor : Option Anchor := none
  file : Option ByteText := none
  query : Option Text := none
  deriving DecidableEq

namespace Draft

/-- A value for a place that is still empty. -/
def once {α : Type} (place : Option α) (value : Except Usage α) : Except Usage (Option α) :=
  if place.isSome then .error .conflict else some <$> value

theorem once_eq_ok_iff {α : Type} {place after : Option α} {value : Except Usage α} :
    once place value = .ok after ↔ place = none ∧ ∃ a, value = .ok a ∧ after = some a := by
  cases place with
  | some b => simp [once]
  | none =>
    cases value with
    | error usage => exact ⟨nofun, fun ⟨_, _, found, _⟩ => nomatch found⟩
    | ok a =>
      constructor
      · intro put
        exact ⟨rfl, a, rfl, (Except.ok.inj put).symm⟩
      · rintro ⟨-, b, found, rfl⟩
        rw [Except.ok.inj found]
        rfl

/-- Puts in the value of an option. -/
def put (d : Draft) (p : Parameter) (v : ByteText) : Except Usage Draft :=
  match p with
  | .position => do
    return { d with position := ← once d.position (Value.number Text.signed? v) }
  | .message => do
    return { d with message := ← once d.message (Value.text v) }
  | .padding => do
    return { d with padding := ← once d.padding (Value.number Text.unsigned? v) }
  | .anchor => do
    return { d with anchor := ← once d.anchor (Value.anchor v) }
  | .file => do
    return { d with file := ← once d.file (Value.path v) }

def putExecute (d : Draft) : Except Usage Draft :=
  if d.execute then .error .conflict else .ok { d with execute := true }

def putQuery (d : Draft) (v : ByteText) : Except Usage Draft := do
  return { d with query := ← once d.query (Value.text v) }

/-- The request, with what was left out filled in. The query has one place to come from at most. -/
def finish (d : Draft) : Except Usage Request :=
  if d.file.isSome ∧ d.query.isSome then .error .conflict
  else match d.position, d.message with
    | some position, some message =>
      .ok {
        position, message
        execute := d.execute
        padding := d.padding.getD defaultPadding
        anchor := d.anchor.getD .trimmed
        file? := d.file
        argument? := d.query }
    | _, _ => .error .missingRequired

end Draft

end QueryCaret
