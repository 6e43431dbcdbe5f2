import QueryCaret.Proofs.Window.Truthful

/-!
# The lines of a block

A block shows a stretch of the query and marks the failure below it, and ends each part with a line
break. The query is any text: trimming takes the line breaks around it and leaves those inside. Each
that is shown makes one more line, and where one is shown between the failing character and the caret,
the caret stands below another line than it marks.

* `render_eq_iff` — read from below, a block has one caret line;
* `count_render` — how many lines a block has;
* `twoLines_render_iff`, `overCaret_render_iff` — when it has two, and when a character stands on the
  line above the caret.
-/

set_option autoImplicit false

namespace QueryCaret

/-- A block of two lines, one that shows the query and one that marks the failure. -/
def TwoLines (block : Text) : Prop :=
  ∃ context indent, '\n' ∉ context ∧
    block = context ++ '\n' :: (Text.spaces indent ++ caret ++ ['\n'])

/-- The character `c` stands at column `index` of the block, on the line above the caret. -/
def OverCaret (block : Text) (index : Nat) (c : Char) : Prop :=
  ∃ above later indent, above.length = index ∧ '\n' ∉ c :: later ∧
    block = above ++ c :: later ++ '\n' :: (Text.spaces indent ++ caret ++ ['\n'])

namespace Window

theorem break_notMem_leftMarker (w : Window) : '\n' ∉ w.leftMarker := by
  unfold leftMarker
  split <;> decide

theorem break_notMem_rightMarker (w : Window) : '\n' ∉ w.rightMarker := by
  unfold rightMarker
  split <;> decide

theorem break_mem_contextLine_iff {w : Window} : '\n' ∈ w.contextLine ↔ '\n' ∈ w.text := by
  simp [contextLine, w.break_notMem_leftMarker, w.break_notMem_rightMarker]

/-- Read from below, a block has one caret line, and all above it is context. -/
theorem render_eq_iff {w : Window} {margin indent : Nat} {above : Text} :
    w.render margin = above ++ '\n' :: (Text.spaces indent ++ caret ++ ['\n']) ↔
      w.contextLine = above ∧ w.caretOffset margin = indent := by
  constructor
  · intro reads
    have same : (w.contextLine ++ '\n' :: Text.spaces (w.caretOffset margin)) ++ (caret ++ ['\n']) =
        (above ++ '\n' :: Text.spaces indent) ++ (caret ++ ['\n']) := by
      simpa [render, caretLine] using reads
    exact Text.indent_unique (List.append_cancel_right same)
  · rintro ⟨rfl, rfl⟩
    rfl

/-- A block has a line for each line break that it shows, and two more. -/
theorem count_render (w : Window) (margin : Nat) :
    (w.render margin).count '\n' = w.text.count '\n' + 2 := by
  have indented := List.count_eq_zero.mpr (Text.break_notMem_spaces (w.caretOffset margin))
  have left := List.count_eq_zero.mpr w.break_notMem_leftMarker
  have right := List.count_eq_zero.mpr w.break_notMem_rightMarker
  have mark : caret.count '\n' = 0 := by decide
  simp [render, contextLine, caretLine, List.count_append, indented, left, right, mark]

theorem twoLines_render_iff {w : Window} {margin : Nat} :
    TwoLines (w.render margin) ↔ '\n' ∉ w.text := by
  rw [← break_mem_contextLine_iff]
  constructor
  · rintro ⟨context, indent, plain, reads⟩
    rwa [(render_eq_iff.mp reads).1]
  · intro plain
    exact ⟨w.contextLine, w.caretOffset margin, plain, rfl⟩

theorem overCaret_render_iff {w : Window} {margin index : Nat} {c : Char} :
    OverCaret (w.render margin) index c ↔
      w.contextLine[index]? = some c ∧ '\n' ∉ w.contextLine.drop index := by
  constructor
  · rintro ⟨above, later, indent, rfl, plain, reads⟩
    rw [(render_eq_iff.mp reads).1]
    simpa using plain
  · rintro ⟨found, plain⟩
    obtain ⟨inside, rfl⟩ := List.getElem?_eq_some_iff.mp found
    have parts := List.take_append_drop index w.contextLine
    rw [List.drop_eq_getElem_cons inside] at plain parts
    refine ⟨w.contextLine.take index, w.contextLine.drop (index + 1), w.caretOffset margin, ?_,
      plain, ?_⟩
    · exact List.length_take_of_le (Nat.le_of_lt inside)
    · rw [parts]
      rfl

/-- The failing character stands on the line above the caret unless a line break is shown from it on. -/
theorem overCaret_failing_iff {s : Text} {column : Nat} (inside : column < s.length) (margin : Nat) :
    OverCaret ((ofLine s column).render margin)
        ((ofLine s column).leftMarker.length + (ofLine s column).caretColumn) s[column] ↔
      '\n' ∉ (ofLine s column).text.drop (ofLine s column).caretColumn := by
  have found : s[column]? = some s[column] := List.getElem?_eq_getElem inside
  have shown := caretColumn_lt_length inside
  have same := getElem?_text_caretColumn inside
  rw [found] at same
  generalize ofLine s column = w at shown same ⊢
  have marked : w.contextLine[w.leftMarker.length + w.caretColumn]? = some s[column] := by
    rw [contextLine, Text.getElem?_middle _ _ shown, same]
  have behind : w.contextLine.drop (w.leftMarker.length + w.caretColumn) =
      w.text.drop w.caretColumn ++ w.rightMarker := by
    rw [contextLine, List.append_assoc, List.drop_length_add_append,
      List.drop_append_of_le_length (Nat.le_of_lt shown)]
  rw [overCaret_render_iff, behind, List.mem_append, not_or]
  exact ⟨fun stands => stands.2.1, fun plain => ⟨marked, plain, w.break_notMem_rightMarker⟩⟩

/-- How many lines the block on a query has, wherever the failure stands. The context holds the shown
stretch of the query, the caret line is the last one, and there is one more line for each line break
that is shown. So the block has two lines exactly if none is shown, and the failing character stands on
the line above the caret exactly if none is shown from that character on. The indent of the caret line
has no bound here; it is the program's where a 64-bit word holds it (`caretOffset?_eq`). -/
theorem lines_of_block (query : Text) (position : Position) (margin : Nat) :
    let column := position.resolve query.trim.length
    let start := firstColumn query.trim.length column
    let shown := query.trim.slice start windowWidth
    let w := compute query position
    let block := (renderWindow query position margin).value
    block = w.leftMarker ++ shown ++ w.rightMarker ++
      '\n' :: (Text.spaces (w.caretOffset margin) ++ caret ++ ['\n']) ∧
    block.count '\n' = shown.count '\n' + 2 ∧
    (TwoLines block ↔ '\n' ∉ shown) ∧
    ((∃ c, query.trim[column]? = some c ∧
        OverCaret block (w.leftMarker.length + (column - start)) c) ↔
      column < query.trim.length ∧ '\n' ∉ shown.drop (column - start)) := by
  intro column start shown w block
  have drawn : block = w.render margin := rfl
  have text : w.text = shown := text_eq_slice query.trim column
  have caretColumn : w.caretColumn = column - start := by
    have sum : start + w.caretColumn = column := firstColumn_add_caretColumn query.trim column
    omega
  have marks (inside : column < query.trim.length) :
      OverCaret block (w.leftMarker.length + (column - start)) query.trim[column] ↔
        '\n' ∉ shown.drop (column - start) := by
    rw [← caretColumn, ← text]
    exact overCaret_failing_iff inside margin
  refine ⟨?_, ?_, ?_, ?_, ?_⟩
  · rw [drawn, ← text]
    rfl
  · rw [drawn, ← text, count_render]
  · rw [drawn, ← text]
    exact twoLines_render_iff
  · rintro ⟨c, found, stands⟩
    obtain ⟨inside, rfl⟩ := List.getElem?_eq_some_iff.mp found
    exact ⟨inside, (marks inside).mp stands⟩
  · rintro ⟨inside, plain⟩
    exact ⟨query.trim[column], List.getElem?_eq_getElem inside, (marks inside).mpr plain⟩

/-- A query of two lines has a block of three, and its first character stands two lines above the caret
that marks it. -/
theorem three_lines_of_broken_query :
    let block := (renderWindow "a\nb".toList (.offset 0) 0).value
    block = "a\nb\n^--\n".toList ∧ block.count '\n' = 3 ∧ ¬ TwoLines block ∧
      ¬ OverCaret block 0 'a' := by
  intro block
  have drawn : block = (compute "a\nb".toList (.offset 0)).render 0 := rfl
  refine ⟨by decide, by decide, ?_, ?_⟩
  · rw [drawn, twoLines_render_iff]
    decide
  · rw [drawn, overCaret_render_iff]
    decide

end Window

end QueryCaret
