import QueryCaret.Proofs.Window.Truthful
import QueryCaret.Window.Checked

/-!
# Machine words are enough for a window

A caller may ask for any offset that fits a word, however far past the query. What is subtracted
without a guard is never more than what it is subtracted from, since each subtraction stands behind the
test that says so; nothing is added but characters to a count. So no step leaves the words, and the
window is that of the unbounded numbers. Only the caret offset is a sum of what the caller asks for. In
a query that is cut the caret column is small whatever the position; in one that is shown whole it is
the position itself, and the sum is a word just if position and margin together are.

* `computeAnchored?_eq` — no step of the window leaves the words;
* `caretOffset?_eq` — when the caret offset does;
* `caretColumn_le_caretLead`, `caretOffset_of_short` — how large its parts are.
-/

set_option autoImplicit false

namespace QueryCaret

theorem Position.resolve_lt {position : Position} {len : Nat} (word : position.FitsWord)
    (countable : len < unsignedLimit) : position.resolve len < unsignedLimit := by
  cases position with
  | offset n => exact word
  | atEnd => exact countable

namespace Anchor

theorem fitsWord_realign {position : Position} (word : position.FitsWord) (anchor : Anchor)
    (query : Text) : (anchor.realign query position).FitsWord := by
  cases position with
  | offset n =>
    cases anchor with
    | trimmed => exact word
    | untrimmed => exact Nat.lt_of_le_of_lt (Nat.sub_le n query.leadingBlanks) word
  | atEnd => trivial

theorem realign?_eq {query : Text} (countable : query.length < unsignedLimit) (anchor : Anchor)
    (position : Position) : anchor.realign? query position = some (anchor.realign query position) := by
  have blanks : Word.count? 0 (query.takeWhile Text.isBlank) = some query.leadingBlanks := by
    have part := query.leadingBlanks_add_length_trim_le
    rw [Text.leadingBlanks] at part ⊢
    rw [Word.count?_of_lt (by omega), Nat.zero_add]
  cases position with
  | offset n =>
    cases anchor with
    | trimmed => rfl
    | untrimmed =>
      simp only [realign?, realign, blanks]
      rfl
  | atEnd => rfl

end Anchor

namespace Window

/-- Both differences are taken only where the column is past the lead. -/
theorem ofLine?_eq (line : Text) {column : Nat} (word : column < unsignedLimit) :
    ofLine? line line.length column = some (ofLine line column) := by
  unfold ofLine? ofLine
  by_cases short : fitsWindow line.length = true
  · rw [if_pos short, if_pos short]
  · rw [if_neg short, if_neg short]
    by_cases near : column ≤ caretLead
    · rw [if_pos near, if_pos near]
    · rw [if_neg near, if_neg near]
      have hidden : Word.sub? column caretLead = some (column - caretLead) :=
        Word.sub?_of_le word (by omega)
      have shown : Word.sub? column (column - caretLead) = some (column - (column - caretLead)) :=
        Word.sub?_of_le word (by omega)
      simp only [hidden, shown, Option.bind_eq_bind, Option.bind_some]
      rfl

theorem compute?_eq {query : Text} {position : Position}
    (countable : query.length < unsignedLimit) (word : position.FitsWord) :
    compute? query position = some (compute query position) := by
  have part := query.leadingBlanks_add_length_trim_le
  have len : Word.count? 0 query.trim = some query.trim.length := by
    rw [Word.count?_of_lt (by omega), Nat.zero_add]
  have column : position.resolve query.trim.length < unsignedLimit :=
    Position.resolve_lt word (by omega)
  rw [compute?, len, Option.bind_eq_bind, Option.bind_some, ofLine?_eq _ column, compute]

theorem computeAnchored?_eq {query : Text} {position : Position}
    (countable : query.length < unsignedLimit) (word : position.FitsWord) (anchor : Anchor) :
    computeAnchored? query position anchor = some (computeAnchored query position anchor) := by
  have realigned : (anchor.realign query position).FitsWord := anchor.fitsWord_realign word query
  rw [computeAnchored?, anchor.realign?_eq countable, Option.bind_eq_bind, Option.bind_some,
    compute?_eq countable realigned, computeAnchored]

/-- The caret offset is a word or there is none; the order of its sums does not matter. -/
theorem caretOffset?_eq (w : Window) (margin : Nat) :
    w.caretOffset? margin =
      if w.caretOffset margin < unsignedLimit then some (w.caretOffset margin) else none := by
  rw [caretOffset?, caretOffset, Word.add?_eq]
  by_cases fits : w.caretColumn + margin < unsignedLimit
  · rw [if_pos fits, Option.bind_eq_bind, Option.bind_some, Word.add?_eq]
  · rw [if_neg fits, if_neg (by omega)]
    rfl

theorem caretOffset?_eq_none_iff {w : Window} {margin : Nat} :
    w.caretOffset? margin = none ↔ unsignedLimit ≤ w.caretOffset margin := by
  rw [caretOffset?_eq]
  by_cases fits : w.caretOffset margin < unsignedLimit
  · rw [if_pos fits]
    simp [fits]
  · rw [if_neg fits]
    simp [Nat.not_lt.mp fits]

/-- The window on a line that is cut moves with the failure, also past the end of the line. -/
theorem caretColumn_le_caretLead {line : Text} (long : windowWidth < line.length) (column : Nat) :
    (ofLine line column).caretColumn ≤ caretLead := by
  rw [ofLine_eq_uniform]
  simp only [uniform]
  rw [firstColumn_of_lt column long]
  omega

theorem caretOffset_le (w : Window) (margin : Nat) :
    w.caretOffset margin ≤ w.caretColumn + margin + leftEllipsis.length := by
  have marker : w.leftMarker.length ≤ leftEllipsis.length := by
    unfold leftMarker
    split
    · exact Nat.le_refl _
    · exact Nat.zero_le _
  rw [caretOffset]
  omega

theorem caretOffset_of_short {line : Text} (short : line.length ≤ windowWidth) (column margin : Nat) :
    (ofLine line column).caretOffset margin = column + margin := by
  have fits : fitsWindow line.length = true := decide_eq_true short
  rw [ofLine, if_pos fits]
  rfl

/-- Windows need no numbers beyond 64-bit words. For every query that can be counted, every offset that
fits a word and the end, under either anchor, each step of the computation has a result, the column of
the failure is a word, and the window is that of the unbounded numbers. Where the query is cut the caret
column is at most 35, so the caret offset is at most 39 more than the margin, and there is one under
every margin that leaves room for this, wherever the failure stands. Where the query is shown whole
there is none exactly if no word holds the column of the failure and the margin together. Whenever there
is one, it is that of the unbounded numbers. -/
theorem words_suffice {query : Text} {position : Position}
    (countable : query.length < unsignedLimit) (word : position.FitsWord) (anchor : Anchor) :
    let len := query.trim.length
    let column := (anchor.realign query position).resolve len
    let w := computeAnchored query position anchor
    compute? query position = some (compute query position) ∧
    computeAnchored? query position anchor = some w ∧ column < unsignedLimit ∧
    (70 < len → w.caretColumn ≤ 35 ∧ ∀ margin, w.caretOffset margin ≤ margin + 39 ∧
      (margin ≤ unsignedLimit - 40 → w.caretOffset? margin = some (w.caretOffset margin))) ∧
    (len ≤ 70 → ∀ margin, w.caretOffset? margin = none ↔ unsignedLimit ≤ column + margin) ∧
    ∀ margin offset, w.caretOffset? margin = some offset → offset = w.caretOffset margin := by
  intro len column w
  have part := query.leadingBlanks_add_length_trim_le
  have realigned := anchor.fitsWord_realign word query
  refine ⟨compute?_eq countable word, computeAnchored?_eq countable word anchor,
    Position.resolve_lt realigned (by omega), ?_, ?_, ?_⟩
  · intro long
    have lead : w.caretColumn ≤ 35 := caretColumn_le_caretLead long column
    refine ⟨lead, ?_⟩
    intro margin
    have bound : w.caretOffset margin ≤ w.caretColumn + margin + 4 := w.caretOffset_le margin
    refine ⟨by omega, ?_⟩
    intro room
    have limit : 40 ≤ unsignedLimit := by decide
    rw [caretOffset?_eq, if_pos (by omega)]
  · intro short margin
    have sum : w.caretOffset margin = column + margin := caretOffset_of_short short column margin
    rw [caretOffset?_eq_none_iff, sum]
  · intro margin offset found
    rw [caretOffset?_eq] at found
    split at found
    · exact (Option.some.inj found).symm
    · cases found

/-- The last offset there is, counted from the blank before a query that is cut, under the widest margin
that always fits; and counted in a query that is shown whole, where a margin of one is too wide. -/
theorem words_suffice_for_last_offset :
    let long : Text := '\u3000' :: List.replicate 80 'a'
    let short : Text := "\u3000a".toList
    let last := Position.offset (unsignedLimit - 1)
    let margin := unsignedLimit - 40
    let w := computeAnchored long last .untrimmed
    let v := computeAnchored short last .trimmed
    long.length < unsignedLimit ∧ short.length < unsignedLimit ∧ last.FitsWord ∧
      computeAnchored? long last .untrimmed = some w ∧
      70 < long.trim.length ∧ margin ≤ unsignedLimit - 40 ∧
      w.caretOffset? margin = some (w.caretOffset margin) ∧
      short.trim.length ≤ 70 ∧ v.caretOffset? 1 = none := by
  intro long short last margin w v
  have countable : long.length < unsignedLimit := by decide
  have countableToo : short.length < unsignedLimit := by decide
  have word : last.FitsWord := by
    change unsignedLimit - 1 < unsignedLimit
    decide
  have cut : 70 < long.trim.length := by decide +kernel
  have whole : short.trim.length ≤ 70 := by decide
  obtain ⟨-, window, -, far, -⟩ := words_suffice countable word .untrimmed
  obtain ⟨-, -, -, -, near, -⟩ := words_suffice countableToo word .trimmed
  refine ⟨countable, countableToo, word, window, cut, Nat.le_refl _, ?_, whole, ?_⟩
  · exact ((far cut).2 margin).2 (Nat.le_refl _)
  · refine (near whole 1).mpr ?_
    change unsignedLimit ≤ unsignedLimit - 1 + 1
    decide

end Window

end QueryCaret
