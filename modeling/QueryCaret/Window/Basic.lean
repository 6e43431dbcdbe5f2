import QueryCaret.Config
import QueryCaret.Event

/-!
# Windows

A report shows one stretch of the trimmed query with a caret under the failure. A query of at most
`windowWidth` characters is shown whole. Of a longer one `windowWidth` characters are shown, so chosen
that at most `caretLead` of them stand before the caret, with an ellipsis on each side where something
is left out. The caret column is not clamped: a failure past the end is marked past the end.

* `text_eq_slice` — the shown text is one slice of the query, starting at `firstColumn`;
* `firstColumn_add_caretColumn` — the caret stands under the column of the failure.
-/

set_option autoImplicit false

namespace QueryCaret

/-- The greatest number of characters a window shows. -/
def windowWidth : Nat := 70

/-- The greatest number of characters shown before the caret once a query has to be cut. -/
def caretLead : Nat := 35

/-- What stands for the characters left out on the left. -/
def leftEllipsis : Text := "... ".toList

/-- What stands for the characters left out on the right. -/
def rightEllipsis : Text := " ...".toList

/-- The mark under the failure; its first character is the one that points. -/
def caret : Text := "^--".toList

/-- Whether a query of `len` characters is shown whole. -/
def fitsWindow (len : Nat) : Bool := len ≤ windowWidth

structure Window where
  text : Text
  caretColumn : Nat
  leftTruncated : Bool
  rightTruncated : Bool
  deriving DecidableEq, Repr

namespace Window

/-- The window on a trimmed query for a failure at `column`. -/
def ofLine (line : Text) (column : Nat) : Window :=
  if fitsWindow line.length then ⟨line, column, false, false⟩
  else if column ≤ caretLead then ⟨line.slice 0 windowWidth, column, false, true⟩
  else
    let hidden := column - caretLead
    let left := line.length - hidden
    ⟨line.slice hidden (min left windowWidth), column - hidden, true, windowWidth < left⟩

/-- The window on a query for a failure in its trimmed text. -/
def compute (query : Text) (position : Position) : Window :=
  ofLine query.trim (position.resolve query.trim.length)

/-- The window on a query for a failure that counts from the given anchor. -/
def computeAnchored (query : Text) (position : Position) (anchor : Anchor) : Window :=
  compute query (anchor.realign query position)

/-- Computes a window and tells what it came to. -/
def observe (query : Text) (position : Position) : Traced Window := do
  let len := query.trim.length
  let w := compute query position
  Traced.emit (.computedWindow len (position.resolve len) w.caretColumn w.leftTruncated
    w.rightTruncated)
  return w

def observeAnchored (query : Text) (position : Position) (anchor : Anchor) : Traced Window :=
  observe query (anchor.realign query position)

/-- The marker before the shown text. -/
def leftMarker (w : Window) : Text := if w.leftTruncated then leftEllipsis else []

/-- The marker behind the shown text. -/
def rightMarker (w : Window) : Text := if w.rightTruncated then rightEllipsis else []

/-- How far the caret is indented when the message under it is indented by `margin`. The number has no
bound here; it is the program's where a 64-bit word holds it (`caretOffset?_eq`). -/
def caretOffset (w : Window) (margin : Nat) : Nat := w.caretColumn + margin + w.leftMarker.length

/-- The line that shows the query. -/
def contextLine (w : Window) : Text := w.leftMarker ++ w.text ++ w.rightMarker

/-- The line that marks the failure. -/
def caretLine (w : Window) (margin : Nat) : Text := Text.spaces (w.caretOffset margin) ++ caret

/-- Both lines, each with its line break. -/
def render (w : Window) (margin : Nat) : Text :=
  w.contextLine ++ '\n' :: (w.caretLine margin ++ ['\n'])

/-- The column of the query at which the shown text starts. -/
def firstColumn (len column : Nat) : Nat := if fitsWindow len then 0 else column - caretLead

theorem text_eq_slice (line : Text) (column : Nat) :
    (ofLine line column).text = line.slice (firstColumn line.length column) windowWidth := by
  unfold ofLine firstColumn
  split
  · rename_i h
    simp only [fitsWindow, decide_eq_true_eq] at h
    simp [Text.slice, List.take_of_length_le h]
  · split
    · rename_i h
      rw [Nat.sub_eq_zero_of_le h]
    · simp only [Text.slice]
      rw [List.take_eq_take_iff, List.length_drop]
      omega

theorem firstColumn_add_caretColumn (line : Text) (column : Nat) :
    firstColumn line.length column + (ofLine line column).caretColumn = column := by
  unfold ofLine firstColumn
  split
  · exact Nat.zero_add column
  · split <;> simp only <;> omega

end Window

/-- The window on a query, drawn above a message that is indented by `margin`. -/
def renderWindow (query : Text) (position : Position) (margin : Nat) : Traced Text :=
  (·.render margin) <$> Window.observe query position

end QueryCaret
