import QueryCaret.Text.Blank
import QueryCaret.Position

/-!
# Configuration

A configuration says how diagnostics are laid out: how far the caret and message lines are indented,
and which text an offset counts from. An offset that counts from the start of the query as it was
given is moved onto the trimmed query by `Anchor.realign`.
-/

set_option autoImplicit false

namespace QueryCaret

/-- The text that the offset of a failure counts from. -/
inductive Anchor where
  /-- The query without the blanks around it. -/
  | trimmed
  /-- The query as it was given. -/
  | untrimmed
  deriving DecidableEq, Repr

namespace Anchor

/-- The name of an anchor on the command line. -/
def word : Anchor → Text
  | .trimmed => "trimmed".toList
  | .untrimmed => "original".toList

/-- The anchor with the given name; upper and lower case differ. -/
def ofWord? (s : Text) : Option Anchor :=
  if s = word .trimmed then some .trimmed
  else if s = word .untrimmed then some .untrimmed
  else none

theorem ofWord?_eq_some_iff {s : Text} {a : Anchor} : ofWord? s = some a ↔ s = a.word := by
  constructor
  · intro h
    unfold ofWord? at h
    split at h
    · cases h
      assumption
    · split at h
      · cases h
        assumption
      · cases h
  · rintro rfl
    cases a <;> decide

/-- The same failure as an offset into the trimmed query. A failure among the leading blanks moves to
the first character left; the end stays the end. -/
def realign (anchor : Anchor) (query : Text) : Position → Position
  | .offset n =>
    match anchor with
    | .untrimmed => .offset (n - query.leadingBlanks)
    | .trimmed => .offset n
  | .atEnd => .atEnd

end Anchor

/-- The indentation that a new configuration starts with. -/
def defaultPadding : Nat := 7

structure Config where
  padding : Nat := defaultPadding
  anchor : Anchor := .trimmed
  deriving DecidableEq, Repr

namespace Config

def withPadding (c : Config) (n : Nat) : Config := { c with padding := n }

def withAnchor (c : Config) (a : Anchor) : Config := { c with anchor := a }

end Config

end QueryCaret
