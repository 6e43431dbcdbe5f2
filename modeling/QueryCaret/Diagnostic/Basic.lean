import QueryCaret.Window.Basic

/-!
# Diagnostics

A diagnostic is a failure of a query: what went wrong, where, and how to lay out the report. It is made
before the query text is at hand and takes its layout from a configuration then; the text is bound
later. The report of an unbound diagnostic is one line with the position as a number; that of a bound
one shows a window on the query, with the message under the caret line.

* `value_render` — `render` returns the report;
* `events_render` — and emits one event exactly when there is a window to compute.
-/

set_option autoImplicit false

namespace QueryCaret

structure Diagnostic where
  kind : Kind
  message : Text
  position : Position
  padding : Nat
  anchor : Anchor
  query : Option Text := none
  deriving DecidableEq, Repr

/-- A new diagnostic, unbound, with the layout that the configuration has now. -/
def Config.diagnose (c : Config) (kind : Kind) (position : Position) (message : Text) : Diagnostic :=
  { kind, message, position, padding := c.padding, anchor := c.anchor }

namespace Diagnostic

def isBound (d : Diagnostic) : Bool := d.query.isSome

/-- The identifier tools know a diagnostic by. -/
def code (d : Diagnostic) : Text := d.kind.code

/-- What went wrong, without where. -/
def headline (d : Diagnostic) : Text := d.kind.label ++ " Error: ".toList ++ d.message

/-- The report while no query is bound. -/
def shortReport (d : Diagnostic) : Text := d.headline ++ " at ".toList ++ d.position.display

/-- The report under a window on the bound query. -/
def reportUnder (d : Diagnostic) (w : Window) : Text :=
  w.render d.padding ++ Text.spaces d.padding ++ d.headline

/-- The window on a query that the diagnostic asks for. -/
def windowOn (d : Diagnostic) (query : Text) : Window :=
  Window.computeAnchored query d.position d.anchor

/-- The text of the report. -/
def report (d : Diagnostic) : Text :=
  match d.query with
  | none => d.shortReport
  | some query => d.reportUnder (d.windowOn query)

/-- Writes the report and tells which window was computed for it. -/
def render (d : Diagnostic) : Traced Text :=
  match d.query with
  | none => pure d.shortReport
  | some query => d.reportUnder <$> Window.observeAnchored query d.position d.anchor

theorem value_render (d : Diagnostic) : d.render.value = d.report := by
  unfold render report
  cases d.query <;> rfl

theorem events_render (d : Diagnostic) :
    d.render.events = match d.query with
      | none => []
      | some query =>
        let w := d.windowOn query
        let len := query.trim.length
        [.computedWindow len ((d.anchor.realign query d.position).resolve len) w.caretColumn
          w.leftTruncated w.rightTruncated] := by
  unfold render
  cases d.query with
  | none => rfl
  | some query => simp [Window.observeAnchored, Window.observe, windowOn, Window.computeAnchored]

end Diagnostic

/-- Messages that front ends share. A name is inserted as it is, whatever it looks like. -/
inductive StockMessage where
  | badLiteral
  | unknownColumn (column : Text)
  | unexpected (expected found : Text)
  deriving DecidableEq, Repr

def StockMessage.text : StockMessage → Text
  | .badLiteral => "bad literal".toList
  | .unknownColumn column => "unknown column ".toList ++ column
  | .unexpected expected found => "expected ".toList ++ expected ++ ", found ".toList ++ found

end QueryCaret
