import QueryCaret.Diagnostic.Binding
import QueryCaret.Proofs.Window.Truthful

/-!
# The caret of a report

The query and the message of a report are any text, so they may hold line breaks, spaces and carets of
their own. A report is therefore read from below: the message line is known, above it stands the caret
line, and the rest is the context. That reading is unique. Counted from the start of the report, the
caret stands as many columns behind the margin as the failing character stands in the report.

* `HasCaret.unique` — a report has one caret line;
* `marks_of_inside` — a window marks the column it was asked for;
* `marks_realigned` — so does the report, for the offset moved onto the trimmed query.
-/

set_option autoImplicit false

namespace QueryCaret

namespace Window

/-- In a text that starts with the context line of the window, a caret indented by `indent` over a
message indented by `margin` stands for the character `c` of the query, not for a marker. -/
structure Marks (w : Window) (rendered : Text) (margin indent : Nat) (c : Char) : Prop where
  margin_le : margin ≤ indent
  character : rendered[indent - margin]? = some c
  after_left : w.leftMarker.length ≤ indent - margin
  before_right : indent - margin < w.leftMarker.length + w.text.length

theorem marks_of_inside {s : Text} {column : Nat} (inside : column < s.length) (margin : Nat)
    (below : Text) :
    ∃ c, s[column]? = some c ∧
      (ofLine s column).Marks ((ofLine s column).contextLine ++ below) margin
        ((ofLine s column).caretOffset margin) c := by
  have shown := caretColumn_lt_length inside
  have found : s[column]? = some s[column] := List.getElem?_eq_getElem inside
  have same := getElem?_text_caretColumn inside
  generalize ofLine s column = w at shown same ⊢
  have index : w.caretOffset margin - margin = w.leftMarker.length + w.caretColumn := by
    simp only [caretOffset]
    omega
  refine ⟨s[column], found, ?_, ?_, ?_, ?_⟩
  · simp only [caretOffset]
    omega
  · rw [index, contextLine, List.append_assoc _ w.rightMarker below,
      Text.getElem?_middle w.leftMarker _ shown, same, found]
  · omega
  · omega

end Window

namespace Diagnostic

/-- The report reads, from below: the message line, the caret line with its indentation, and `above`
that the context. -/
def HasCaret (d : Diagnostic) (above : Text) (indent : Nat) : Prop :=
  d.render.value =
    above ++ '\n' :: (Text.spaces indent ++ caret ++ '\n' :: (Text.spaces d.padding ++ d.headline))

theorem HasCaret.unique {d : Diagnostic} {above above' : Text} {indent indent' : Nat}
    (one : d.HasCaret above indent) (other : d.HasCaret above' indent') :
    above = above' ∧ indent = indent' := by
  let below := caret ++ '\n' :: (Text.spaces d.padding ++ d.headline)
  have split (a : Text) (n : Nat) (reads : d.HasCaret a n) :
      d.render.value = (a ++ '\n' :: Text.spaces n) ++ below := by
    rw [reads]
    simp [below]
  have same := (split above indent one).symm.trans (split above' indent' other)
  exact Text.indent_unique (List.append_cancel_right same)

theorem hasCaret_of_bound {d : Diagnostic} {query : Text} (bound : d.query = some query) :
    d.HasCaret (d.windowOn query).contextLine ((d.windowOn query).caretOffset d.padding) := by
  rw [HasCaret, value_render, report, bound]
  simp [reportUnder, Window.render, Window.caretLine]

/-- A failure that lies inside the trimmed query is marked there. -/
theorem marks_realigned {d : Diagnostic} {query : Text} {column : Nat}
    (bound : d.query = some query)
    (realigned : d.anchor.realign query d.position = .offset column)
    (inside : column < query.trim.length) :
    ∃ c, query.trim[column]? = some c ∧
      (d.windowOn query).Marks d.render.value d.padding
        ((d.windowOn query).caretOffset d.padding) c := by
  have window : d.windowOn query = Window.ofLine query.trim column := by
    rw [windowOn, Window.computeAnchored, realigned]
    rfl
  rw [hasCaret_of_bound bound, window]
  exact Window.marks_of_inside inside d.padding _

/-- The caret of a finished report marks the failing character. Whatever the query holds, its report
has exactly one caret line; an offset that counts from the start of the query marks its character
there, one among the leading blanks marks the first character left, and one that counts from the
trimmed query marks its character in that. -/
theorem caret_marks_failing_character (query : Text) (nonempty : query ≠ []) (kind : Kind)
    (message : Text) (padding offset : Nat) (anchor : Anchor) :
    let fresh := Config.diagnose ⟨padding, anchor⟩ kind (.offset offset) message
    let d : Diagnostic := { fresh with query := some query }
    let w := d.windowOn query
    let trimmed := query.trim
    let blanks := query.leadingBlanks
    (fresh.bind query).value = .ok d ∧
    ∃ indent, d.HasCaret w.contextLine indent ∧
      (∀ above other, d.HasCaret above other → above = w.contextLine ∧ other = indent) ∧
      (anchor = .untrimmed → blanks ≤ offset → offset < blanks + trimmed.length →
        ∃ c, query[offset]? = some c ∧ w.Marks d.render.value padding indent c) ∧
      (anchor = .untrimmed → offset < blanks → trimmed ≠ [] →
        ∃ c, trimmed.head? = some c ∧ w.Marks d.render.value padding indent c) ∧
      (anchor = .trimmed → offset < trimmed.length →
        ∃ c, trimmed[offset]? = some c ∧ w.Marks d.render.value padding indent c) := by
  intro fresh d w trimmed blanks
  have unbound : fresh.query = none := rfl
  have bound : d.query = some query := rfl
  refine ⟨?_, w.caretOffset padding, hasCaret_of_bound bound, ?_, ?_, ?_, ?_⟩
  · rw [value_bind_of_unbound unbound, Option.filter_some, if_pos (decide_eq_true nonempty)]
  · intro above other reads
    exact reads.unique (hasCaret_of_bound bound)
  · intro original after before
    subst original
    have inside : offset - blanks < trimmed.length := by omega
    obtain ⟨c, found, marks⟩ := marks_realigned bound rfl inside
    refine ⟨c, ?_, marks⟩
    rw [Text.getElem?_trim inside, Nat.add_sub_of_le after] at found
    exact found
  · intro original before kept
    subst original
    have first : offset - blanks = 0 := Nat.sub_eq_zero_of_le (Nat.le_of_lt before)
    have inside : offset - blanks < trimmed.length := by
      rw [first]
      exact List.length_pos_iff.mpr kept
    obtain ⟨c, found, marks⟩ := marks_realigned bound rfl inside
    refine ⟨c, ?_, marks⟩
    rw [List.head?_eq_getElem?, ← first]
    exact found
  · intro plain inside
    subst plain
    exact marks_realigned bound rfl inside

/-- Two blanks of different width stand before this query, and it is cut on both sides. -/
theorem caret_marks_letter_of_cut_query :
    let query : Text := '\u3000' :: ' ' :: List.replicate 60 'a' ++ 'x' :: List.replicate 60 'b'
    let d : Diagnostic :=
      ⟨.execution, "no such column".toList, .offset 62, 7, .untrimmed, some query⟩
    query ≠ [] ∧ ∃ indent, d.HasCaret (d.windowOn query).contextLine indent ∧
      (d.windowOn query).Marks d.render.value 7 indent 'x' := by
  intro query d
  have nonempty : query ≠ [] := by decide
  obtain ⟨-, indent, reads, -, inside, -⟩ := caret_marks_failing_character query nonempty
    .execution "no such column".toList 7 62 .untrimmed
  obtain ⟨c, found, marks⟩ := inside rfl (by decide +kernel) (by decide +kernel)
  obtain rfl : 'x' = c := Option.some.inj found
  exact ⟨nonempty, indent, reads, marks⟩

end Diagnostic

end QueryCaret
