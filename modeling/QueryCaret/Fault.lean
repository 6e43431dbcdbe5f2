import QueryCaret.Text.Numeral

/-!
# Faults

What can go wrong around a diagnostic: its position is no position, its query is bound already, or the
query cannot be read. Each cause has a message, an identifier and, where there is something to do about
it, a hint.

* `bind_eq_ok_iff` — when something comes of two computations in a row that can each go wrong.
-/

set_option autoImplicit false

namespace QueryCaret

/-- Of two computations in a row something comes exactly if something comes of both. -/
theorem bind_eq_ok_iff {ε α β : Type} {x : Except ε α} {f : α → Except ε β} {b : β} :
    x >>= f = .ok b ↔ ∃ a, x = .ok a ∧ f a = .ok b := by
  cases x with
  | error e => exact ⟨nofun, fun ⟨_, found, _⟩ => nomatch found⟩
  | ok a => exact ⟨fun h => ⟨a, rfl, h⟩, fun ⟨_, found, h⟩ => Except.ok.inj found ▸ h⟩

/-- Why a query source could not be read as text. -/
inductive ReadFault where
  /-- The operating system refused, for a reason it also numbers. -/
  | system (reason : Text) (number : Nat)
  /-- The bytes were read and are not UTF-8. -/
  | notUtf8
  deriving DecidableEq, Repr

namespace ReadFault

def missing : ReadFault := .system "No such file or directory".toList 2
def notDirectory : ReadFault := .system "Not a directory".toList 20
def isDirectory : ReadFault := .system "Is a directory".toList 21

def message : ReadFault → Text
  | .system reason number => reason ++ " (os error ".toList ++ Text.decimal number ++ [')']
  | .notUtf8 => "stream did not contain valid UTF-8".toList

end ReadFault

inductive Fault where
  /-- A raw position below the mark for the end of the query. -/
  | invalidPosition (raw : Int)
  | queryAlreadyBound
  | unreadable (cause : ReadFault)
  deriving DecidableEq, Repr

namespace Fault

def message : Fault → Text
  | .invalidPosition raw =>
    "invalid error position ".toList ++ Text.signedDecimal raw
      ++ ": expected -1 or a non-negative offset".toList
  | .queryAlreadyBound => "query text is already bound to this error".toList
  | .unreadable cause => "IO error: ".toList ++ cause.message

/-- The identifier a fault carries. -/
def code : Fault → Text
  | .invalidPosition _ => "querydiag::invalid_position".toList
  | .queryAlreadyBound => "querydiag::query_already_bound".toList
  | .unreadable _ => "querydiag::io_error".toList

/-- What to do about it. -/
def help : Fault → Option Text
  | .invalidPosition _ => some "use -1 when the failure is at the end of the query".toList
  | .queryAlreadyBound | .unreadable _ => none

end Fault

end QueryCaret
