import QueryCaret.Diagnostic.Basic
import QueryCaret.Proofs.Window.Truthful

/-!
# The end of the query

Offsets are not clamped, and the window on a long query may start past its end and show nothing. Still
the caret stands to the shown text as the failure stands to the query: inside it, right behind it, or
past it. The end itself is an offset like any other, whichever way offsets are counted, also where the
query is blank and all of it is trimmed away.

* `caretColumn_of_past` — how far past the text the caret stands;
* `compare_caretColumn` — the caret stands to the text as the failure stands to the line;
* `observeAnchored_atEnd` — the end is the offset it has under either anchor.
-/

set_option autoImplicit false

namespace QueryCaret

namespace Window

/-- The caret moves with the failure as long as the whole line is shown; otherwise it stays where it is
once the window has left the line. -/
def overshoot (len past : Nat) : Nat := if len ≤ windowWidth then past else min past caretLead

theorem overshoot_pos {past : Nat} (len : Nat) (positive : 0 < past) : 0 < overshoot len past := by
  unfold overshoot
  split
  · exact positive
  · exact Nat.lt_min.mpr ⟨positive, by decide⟩

/-- The window on a line that ends before the failure shows the line up to its end. -/
theorem caretColumn_of_past {line : Text} {column : Nat} (past : line.length ≤ column) :
    (ofLine line column).caretColumn =
      (ofLine line column).text.length + overshoot line.length (column - line.length) := by
  rw [ofLine_eq_uniform]
  simp only [uniform, Text.length_slice, overshoot]
  rcases Nat.lt_or_ge windowWidth line.length with long | short
  · have lead := caretLead_le_windowWidth
    rw [firstColumn_of_lt column long, if_neg (Nat.not_le.mpr long)]
    omega
  · rw [firstColumn_of_le column short, if_pos short]
    omega

theorem compare_caretColumn (line : Text) (column : Nat) :
    compare (ofLine line column).caretColumn (ofLine line column).text.length =
      compare column line.length := by
  rcases Nat.lt_trichotomy column line.length with inside | atEnd | past
  · rw [Nat.compare_eq_lt.mpr inside, Nat.compare_eq_lt.mpr (caretColumn_lt_length inside)]
  · have behind := caretColumn_of_past (Nat.le_of_eq atEnd.symm)
    have close : overshoot line.length (column - line.length) = 0 := by
      simp [atEnd, overshoot]
    rw [close, Nat.add_zero] at behind
    rw [Nat.compare_eq_eq.mpr atEnd, Nat.compare_eq_eq.mpr behind]
  · have behind := caretColumn_of_past (Nat.le_of_lt past)
    have apart := overshoot_pos line.length (Nat.sub_pos_of_lt past)
    rw [Nat.compare_eq_gt.mpr past, Nat.compare_eq_gt.mpr (by omega)]

/-- Of a line that ends before the failure nothing is left out behind the window. -/
theorem rightTruncated_of_past {line : Text} {column : Nat} (past : line.length ≤ column) :
    (ofLine line column).rightTruncated = false := by
  rw [rightTruncated_eq, decide_eq_false_iff_not, Nat.not_lt]
  rcases Nat.lt_or_ge windowWidth line.length with long | short
  · have lead := caretLead_le_windowWidth
    rw [firstColumn_of_lt column long]
    omega
  · exact Nat.le_trans short (Nat.le_add_left _ _)

end Window

/-- The end of the trimmed query as an offset, counted from where the anchor counts. -/
def Anchor.endOffset (query : Text) : Anchor → Nat
  | .trimmed => query.trim.length
  | .untrimmed => query.leadingBlanks + query.trim.length

theorem Anchor.realign_endOffset (anchor : Anchor) (query : Text) :
    anchor.realign query (.offset (anchor.endOffset query)) = .offset query.trim.length := by
  cases anchor with
  | trimmed => rfl
  | untrimmed => simp only [realign, endOffset, Nat.add_sub_cancel_left]

/-- The end is the offset it has under any anchor, for the window and for what is told about it. -/
theorem Window.observeAnchored_atEnd (query : Text) (anchor counted : Anchor) :
    observeAnchored query .atEnd anchor =
      observeAnchored query (.offset (counted.endOffset query)) counted := by
  rw [observeAnchored, observeAnchored, counted.realign_endOffset]
  rfl

theorem Window.computeAnchored_atEnd (query : Text) (anchor counted : Anchor) :
    computeAnchored query .atEnd anchor =
      computeAnchored query (.offset (counted.endOffset query)) counted := by
  rw [computeAnchored, computeAnchored, counted.realign_endOffset]
  rfl

namespace Diagnostic

theorem render_atEnd {d : Diagnostic} {query : Text} (bound : d.query = some query)
    (atEnd : d.position = .atEnd) (counted : Anchor) :
    { d with position := .offset (counted.endOffset query), anchor := counted }.render = d.render := by
  simp only [render, bound, atEnd, Window.observeAnchored_atEnd query d.anchor counted]
  rfl

/-- The caret stands inside the shown text, right behind it or past it as the failure stands inside the
query, at its end or past it. From the end on nothing is left out on the right, and past it the caret
stands as far from the text as the failure from the query, though not farther than `caretLead` when the
query is cut. A failure at the end is one at the offset of the end, whether that counts from the trimmed
query or from all of it: both have the same window, and every report on the query is the same. -/
theorem caret_follows_failure (query : Text) (position : Position) (anchor : Anchor) :
    let len := query.trim.length
    let column := (anchor.realign query position).resolve len
    let w := Window.computeAnchored query position anchor
    compare w.caretColumn w.text.length = compare column len ∧
    (len ≤ column → w.rightTruncated = false) ∧
    (len < column → w.caretColumn - w.text.length =
      if len ≤ windowWidth then column - len else min (column - len) caretLead) ∧
    Window.computeAnchored query .atEnd anchor =
      Window.computeAnchored query (.offset len) .trimmed ∧
    Window.computeAnchored query .atEnd anchor =
      Window.computeAnchored query (.offset (query.leadingBlanks + len)) .untrimmed ∧
    ∀ d : Diagnostic, d.query = some query → d.position = .atEnd →
      { d with position := .offset len, anchor := .trimmed }.render = d.render ∧
      { d with position := .offset (query.leadingBlanks + len), anchor := .untrimmed }.render =
        d.render := by
  intro len column w
  have line : w = Window.ofLine query.trim column := rfl
  refine ⟨?_, ?_, ?_, ?_, ?_, ?_⟩
  · rw [line]
    exact Window.compare_caretColumn query.trim column
  · intro past
    rw [line]
    exact Window.rightTruncated_of_past past
  · intro past
    rw [line, Window.caretColumn_of_past (Nat.le_of_lt past), Nat.add_sub_cancel_left]
    rfl
  · exact Window.computeAnchored_atEnd query anchor .trimmed
  · exact Window.computeAnchored_atEnd query anchor .untrimmed
  · intro d bound atEnd
    exact ⟨render_atEnd bound atEnd .trimmed, render_atEnd bound atEnd .untrimmed⟩

/-- The failure stands far past a query that has to be cut, and the blanks before it count. -/
theorem caret_follows_failure_past_cut_query :
    let query : Text := '\u3000' :: List.replicate 80 'a'
    let w := Window.computeAnchored query (.offset 131) .untrimmed
    let d : Diagnostic := ⟨.execution, "no such row".toList, .atEnd, 7, .trimmed, some query⟩
    query.trim.length ≤ 130 ∧ w.rightTruncated = false ∧
      query.trim.length < 130 ∧ w.caretColumn - w.text.length = 35 ∧
      d.query = some query ∧ d.position = .atEnd ∧
      { d with position := .offset 81, anchor := .untrimmed }.render = d.render := by
  intro query w d
  obtain ⟨-, right, far, -, -, reports⟩ := caret_follows_failure query (.offset 131) .untrimmed
  have past : query.trim.length < 130 := by decide +kernel
  refine ⟨Nat.le_of_lt past, right (Nat.le_of_lt past), past, ?_, rfl, rfl, ?_⟩
  · exact (far past).trans (by decide +kernel)
  · exact (reports d rfl rfl).2

/-- Of a blank query nothing is left, and its end is the offset behind it. -/
example : Window.computeAnchored "  ".toList .atEnd .trimmed =
    Window.computeAnchored "  ".toList (.offset 2) .untrimmed := by decide

end Diagnostic

end QueryCaret
