import QueryCaret.Window.Basic

/-!
# A window tells the truth

`Window.ofLine` lays a window out in three ways, with flags written down in two of them. `uniform` is
the same window by one rule, without cases: it starts at `firstColumn`, shows as much as fits, and its
flags ask whether anything is left on either side. So the flags cannot lie.

* `ofLine_eq_uniform` — the three ways agree with the one rule, for every line and every column;
* `Truthful` — what follows from it for the window on a query, wherever the failure stands;
* `getElem?_text_caretColumn` — a caret inside the line stands under the character of its column.
-/

set_option autoImplicit false

namespace QueryCaret.Window

/-- The window on a line by one rule. -/
def uniform (line : Text) (column : Nat) : Window :=
  let start := firstColumn line.length column
  ⟨line.slice start windowWidth, column - start, 0 < start, start + windowWidth < line.length⟩

theorem caretLead_le_windowWidth : caretLead ≤ windowWidth := by
  decide

theorem firstColumn_of_le {len : Nat} (column : Nat) (short : len ≤ windowWidth) :
    firstColumn len column = 0 := by
  simp [firstColumn, fitsWindow, short]

theorem firstColumn_of_lt {len : Nat} (column : Nat) (long : windowWidth < len) :
    firstColumn len column = column - caretLead := by
  simp [firstColumn, fitsWindow, Nat.not_le.mpr long]

theorem firstColumn_le (len column : Nat) : firstColumn len column ≤ column := by
  unfold firstColumn
  split
  · exact Nat.zero_le column
  · exact Nat.sub_le column caretLead

theorem leftTruncated_eq (line : Text) (column : Nat) :
    (ofLine line column).leftTruncated = decide (0 < firstColumn line.length column) := by
  unfold ofLine firstColumn
  split
  · rfl
  · split
    · rename_i near
      rw [Nat.sub_eq_zero_of_le near]
      rfl
    · rename_i far
      have shifted : 0 < column - caretLead := by omega
      simp [shifted]

theorem rightTruncated_eq (line : Text) (column : Nat) :
    (ofLine line column).rightTruncated =
      decide (firstColumn line.length column + windowWidth < line.length) := by
  unfold ofLine firstColumn
  split
  · rename_i short
    simp only [fitsWindow, decide_eq_true_eq] at short
    simp [Nat.not_lt.mpr short]
  · rename_i long
    simp only [fitsWindow, decide_eq_true_eq, Nat.not_le] at long
    split
    · rename_i near
      rw [Nat.sub_eq_zero_of_le near, Nat.zero_add]
      simp [long]
    · simp only [decide_eq_decide]
      omega

/-- The three ways to lay out a window are one. -/
theorem ofLine_eq_uniform (line : Text) (column : Nat) :
    ofLine line column = uniform line column := by
  have text := text_eq_slice line column
  have left := leftTruncated_eq line column
  have right := rightTruncated_eq line column
  have caret : (ofLine line column).caretColumn = column - firstColumn line.length column := by
    have sum := firstColumn_add_caretColumn line column
    omega
  cases shape : ofLine line column with
  | mk t c l r =>
    simp only [shape] at text left right caret
    rw [uniform, text, caret, left, right]

theorem sub_firstColumn_lt {len column : Nat} (inside : column < len) :
    column - firstColumn len column < windowWidth := by
  unfold firstColumn
  split
  · rename_i short
    simp only [fitsWindow, decide_eq_true_eq] at short
    omega
  · simp only [windowWidth, caretLead]
    omega

theorem caretColumn_lt_length {line : Text} {column : Nat} (inside : column < line.length) :
    (ofLine line column).caretColumn < (ofLine line column).text.length := by
  have start := firstColumn_le line.length column
  rw [ofLine_eq_uniform]
  simp only [uniform, Text.length_slice]
  exact Nat.lt_min.mpr ⟨sub_firstColumn_lt inside, Nat.sub_lt_sub_right start inside⟩

theorem getElem?_text_caretColumn {s : Text} {column : Nat} (inside : column < s.length) :
    (ofLine s column).text[(ofLine s column).caretColumn]? = s[column]? := by
  rw [ofLine_eq_uniform]
  simp only [uniform, Text.getElem?_slice]
  rw [if_pos (sub_firstColumn_lt inside), Nat.add_sub_of_le (firstColumn_le s.length column)]

/-- What a window on a line owes its reader, for a failure at `column`. -/
structure Truthful (w : Window) (line : Text) (column : Nat) : Prop where
  /-- The window has been laid out by the one rule. -/
  rule : w = uniform line column
  /-- The shown text is one stretch of the line, and each flag says whether there is more on its side. -/
  stretch : ∃ before behind, line = before ++ w.text ++ behind ∧
    (w.leftTruncated = true ↔ before ≠ []) ∧ (w.rightTruncated = true ↔ behind ≠ [])
  bounded : w.text.length ≤ windowWidth
  /-- Nothing is left out exactly when the whole line fits. -/
  whole : (w.leftTruncated = false ∧ w.rightTruncated = false) ↔ line.length ≤ windowWidth
  verbatim : line.length ≤ windowWidth → w.text = line
  /-- The shown text is the up to `windowWidth` characters from the first column on. -/
  text : w.text = line.slice (firstColumn line.length column) windowWidth
  /-- There is no text to show when the window starts at the end of the line or past it. -/
  past : line.length ≤ firstColumn line.length column → w.text = []
  caret : firstColumn line.length column + w.caretColumn = column

theorem stretch_uniform (line : Text) (column : Nat) :
    ∃ before behind, line = before ++ (uniform line column).text ++ behind ∧
      ((uniform line column).leftTruncated = true ↔ before ≠ []) ∧
      ((uniform line column).rightTruncated = true ↔ behind ≠ []) := by
  let start := firstColumn line.length column
  refine ⟨line.take start, line.drop (start + windowWidth), ?_, ?_, ?_⟩
  · exact (Text.take_append_slice_append_drop line start windowWidth).symm
  · -- A window that does not start at the first column has a line of more than its width behind it.
    have nonempty : 0 < start → line ≠ [] := by
      intro shifted empty
      have short : line.length ≤ windowWidth := by
        rw [empty]
        exact Nat.zero_le windowWidth
      have unshifted : start = 0 := firstColumn_of_le column short
      omega
    simp only [uniform, decide_eq_true_eq, ne_eq, List.take_eq_nil_iff, not_or]
    exact ⟨fun shifted => ⟨Nat.ne_of_gt shifted, nonempty shifted⟩,
      fun kept => Nat.pos_of_ne_zero kept.1⟩
  · simp only [uniform, decide_eq_true_eq, ne_eq, List.drop_eq_nil_iff, Nat.not_le]
    exact Iff.rfl

theorem whole_uniform (line : Text) (column : Nat) :
    ((uniform line column).leftTruncated = false ∧ (uniform line column).rightTruncated = false) ↔
      line.length ≤ windowWidth := by
  simp only [uniform, decide_eq_false_iff_not, Nat.not_lt, Nat.le_zero_eq]
  constructor
  · rintro ⟨start, rest⟩
    rwa [start, Nat.zero_add] at rest
  · intro short
    have start := firstColumn_of_le column short
    exact ⟨start, by rwa [start, Nat.zero_add]⟩

/-- The window on a query is truthful about its trimmed text, wherever the failure stands. -/
theorem truthful_compute (query : Text) (position : Position) :
    (compute query position).Truthful query.trim (position.resolve query.trim.length) := by
  have rule := ofLine_eq_uniform query.trim (position.resolve query.trim.length)
  have start := firstColumn_le query.trim.length (position.resolve query.trim.length)
  rw [compute, rule]
  exact {
    rule := rfl
    stretch := stretch_uniform _ _
    bounded := by
      simp only [uniform, Text.length_slice]
      exact Nat.min_le_left _ _
    whole := whole_uniform _ _
    verbatim := by
      intro short
      simp only [uniform, Text.slice]
      rw [firstColumn_of_le _ short, List.drop_zero, List.take_of_length_le short]
    text := rfl
    past := by
      intro past
      simp only [uniform, Text.slice]
      rw [List.drop_eq_nil_of_le past, List.take_nil]
    caret := Nat.add_sub_of_le start }

end QueryCaret.Window
