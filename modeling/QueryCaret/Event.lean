import QueryCaret.Kind
import QueryCaret.Position

/-!
# Events

Work on a diagnostic reports what it does as events, in order. A computation with events is a value of
`Traced`: its result together with the events it emitted.

* `value_bind`, `events_bind` — a sequence of computations emits the events of the first, then those
  of the second.
-/

set_option autoImplicit false

namespace QueryCaret

inductive Event where
  /-- A query of `chars` characters was bound to a diagnostic. -/
  | boundQuery (kind : Kind) (position : Position) (chars : Nat)
  /-- A second query was turned away and the first kept. -/
  | keptQuery (reason : Fault) (kind : Kind)
  /-- A window was cut out of a trimmed query of `length` characters. -/
  | computedWindow (length position caret : Nat) (left right : Bool)
  /-- A query is about to be read from a file. -/
  | readingFile (path : Text)
  deriving DecidableEq, Repr

namespace Event

inductive Level where
  | trace | debug
  deriving DecidableEq, Repr

def Level.label : Level → Text
  | .trace => "TRACE".toList
  | .debug => "DEBUG".toList

def level : Event → Level
  | .computedWindow .. => .trace
  | .boundQuery .. | .keptQuery .. | .readingFile .. => .debug

def message : Event → Text
  | .boundQuery .. => "bound query to error".toList
  | .keptQuery .. => "keeping previously bound query".toList
  | .computedWindow .. => "computed query window".toList
  | .readingFile .. => "reading query file".toList

private def truth : Bool → Text
  | true => "true".toList
  | false => "false".toList

/-- The details of an event, by name. -/
def fields : Event → List (Text × Text)
  | .boundQuery kind position chars =>
    [("kind".toList, kind.label), ("position".toList, position.display),
     ("chars".toList, Text.decimal chars)]
  | .keptQuery reason kind => [("error".toList, reason.message), ("kind".toList, kind.label)]
  | .computedWindow length position caret left right =>
    [("qlen".toList, Text.decimal length), ("position".toList, Text.decimal position),
     ("caret".toList, Text.decimal caret), ("left".toList, truth left), ("right".toList, truth right)]
  | .readingFile path => [("path".toList, path)]

end Event

/-- A result and the events emitted on the way to it. -/
structure Traced (α : Type) where
  value : α
  events : List Event
  deriving DecidableEq, Repr

namespace Traced

variable {α β : Type}

instance : Monad Traced where
  pure a := ⟨a, []⟩
  bind x f := ⟨(f x.value).value, x.events ++ (f x.value).events⟩

def emit (e : Event) : Traced Unit := ⟨(), [e]⟩

@[simp] theorem value_pure (a : α) : (pure a : Traced α).value = a := rfl

@[simp] theorem events_pure (a : α) : (pure a : Traced α).events = [] := rfl

@[simp] theorem value_bind (x : Traced α) (f : α → Traced β) :
    (x >>= f).value = (f x.value).value := rfl

@[simp] theorem events_bind (x : Traced α) (f : α → Traced β) :
    (x >>= f).events = x.events ++ (f x.value).events := rfl

@[simp] theorem value_map (f : α → β) (x : Traced α) : (f <$> x).value = f x.value := rfl

@[simp] theorem events_map (f : α → β) (x : Traced α) : (f <$> x).events = x.events := by
  simp [Functor.map]

@[simp] theorem events_emit (e : Event) : (emit e).events = [e] := rfl

theorem ext_parts {x y : Traced α} (value : x.value = y.value) (events : x.events = y.events) :
    x = y := by
  cases x
  cases y
  simp_all

instance : LawfulMonad Traced := LawfulMonad.mk' Traced
  (fun x => ext_parts rfl (by simp))
  (fun a f => ext_parts rfl (by simp))
  (fun x f g => ext_parts rfl (by simp))

end Traced

end QueryCaret
