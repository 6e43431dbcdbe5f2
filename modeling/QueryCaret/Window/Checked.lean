import QueryCaret.Window.Basic

/-!
# Windows in machine words

The same window as `Window.computeAnchored` makes, computed with 64-bit words. A sum or a difference is
that of the integers, and there is none where no word holds it; characters are counted one by one. Where
the layout subtracts and stops at zero on purpose, the subtraction stays as it is.

* `add?_eq`, `sub?_of_le` — when there is a sum, and when there is a difference;
* `count?_of_lt` — as many characters as fit a word can be counted.
-/

set_option autoImplicit false

namespace QueryCaret

namespace Word

/-- The word that holds an integer. -/
def ofInt? (n : Int) : Option Nat :=
  if 0 ≤ n ∧ n < (unsignedLimit : Int) then some n.toNat else none

def add? (a b : Nat) : Option Nat := ofInt? ((a : Int) + b)

def sub? (a b : Nat) : Option Nat := ofInt? ((a : Int) - b)

/-- Counts the characters of a text when `n` have been counted before. -/
def count? (n : Nat) : Text → Option Nat
  | [] => some n
  | _ :: s => do
    let next ← add? n 1
    count? next s

theorem add?_eq (a b : Nat) : add? a b = if a + b < unsignedLimit then some (a + b) else none := by
  unfold add? ofInt?
  by_cases fits : a + b < unsignedLimit
  · rw [if_pos fits, if_pos (by omega), Option.some.injEq]
    omega
  · rw [if_neg fits, if_neg (by omega)]

theorem sub?_of_le {a b : Nat} (word : a < unsignedLimit) (le : b ≤ a) : sub? a b = some (a - b) := by
  unfold sub? ofInt?
  rw [if_pos (by omega), Option.some.injEq]
  omega

theorem count?_of_lt {n : Nat} {s : Text} (fits : n + s.length < unsignedLimit) :
    count? n s = some (n + s.length) := by
  induction s generalizing n with
  | nil => rfl
  | cons c s ih =>
    rw [List.length_cons] at fits
    have next : add? n 1 = some (n + 1) := by
      rw [add?_eq, if_pos (by omega)]
    have later : count? (n + 1) s = some (n + 1 + s.length) := ih (by omega)
    rw [count?, next, Option.bind_eq_bind, Option.bind_some, later, List.length_cons,
      Option.some.injEq]
    omega

end Word

/-- A word holds the offset. -/
def Position.FitsWord : Position → Prop
  | .offset n => n < unsignedLimit
  | .atEnd => True

def Anchor.realign? (anchor : Anchor) (query : Text) : Position → Option Position
  | .offset n =>
    match anchor with
    | .untrimmed => do
      let blanks ← Word.count? 0 (query.takeWhile Text.isBlank)
      return .offset (n - blanks)
    | .trimmed => some (.offset n)
  | .atEnd => some .atEnd

namespace Window

/-- The window on a trimmed query of which the length has been counted. -/
def ofLine? (line : Text) (len column : Nat) : Option Window :=
  if fitsWindow len then some ⟨line, column, false, false⟩
  else if column ≤ caretLead then some ⟨line.slice 0 windowWidth, column, false, true⟩
  else do
    let hidden ← Word.sub? column caretLead
    let left := len - hidden
    let caretColumn ← Word.sub? column hidden
    return ⟨line.slice hidden (min left windowWidth), caretColumn, true, windowWidth < left⟩

def compute? (query : Text) (position : Position) : Option Window := do
  let line := query.trim
  let len ← Word.count? 0 line
  ofLine? line len (position.resolve len)

def computeAnchored? (query : Text) (position : Position) (anchor : Anchor) : Option Window := do
  let realigned ← anchor.realign? query position
  compute? query realigned

/-- Column, margin and marker are added in this order. -/
def caretOffset? (w : Window) (margin : Nat) : Option Nat := do
  let indented ← Word.add? w.caretColumn margin
  Word.add? indented w.leftMarker.length

end Window

end QueryCaret
