import QueryCaret.Text.Basic

/-!
# Kinds of failure

A query fails while it is read (`syntactic`) or while it runs (`execution`). The kind names the failure
in a report (`label`) and identifies it to tools (`code`).
-/

set_option autoImplicit false

namespace QueryCaret

inductive Kind where
  | syntactic | execution
  deriving DecidableEq, Repr

namespace Kind

/-- The word a report starts its message with. -/
def label : Kind → Text
  | .syntactic => "Syntax".toList
  | .execution => "Execute".toList

/-- The identifier a diagnostic of this kind carries. -/
def code : Kind → Text
  | .syntactic => "querydiag::syntax".toList
  | .execution => "querydiag::execute".toList

/-- The first letter of a label tells the kind, whatever stands behind the label. -/
theorem eq_of_label_append {k l : Kind} {s t : Text} (same : k.label ++ s = l.label ++ t) :
    k = l := by
  have head (m : Kind) (behind : Text) : (m.label ++ behind).head? = m.label.head? := by
    cases m <;> rfl
  have first : k.label.head? = l.label.head? := by rw [← head k s, same, head l t]
  revert first
  cases k <;> cases l <;> decide

end Kind

end QueryCaret
