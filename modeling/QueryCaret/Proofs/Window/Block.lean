import QueryCaret.Proofs.Window.Lines

/-!
# What a block tells

The shown text may hold line breaks, carets and ellipses of its own, so nothing in it tells where it
ends. Read from below, a block is still read in one way: its last line has a caret and nothing but
spaces before it, and the rest is context. The line tells the column of the caret once the margin is
known, and the context tells the text once it is known on which sides the query was cut. That has to be
known: a text that starts like an ellipsis prints like one that was cut.

* `EndsInLine.unique` — a text has one last line;
* `endsInLine_render_iff` — which one a block has;
* `render_inj` — two windows that are cut alike and print alike are the same window.
-/

set_option autoImplicit false

namespace QueryCaret

/-- The text ends with the line `last` and its line break, below `above` and the line break of that. -/
structure EndsInLine (s above last : Text) : Prop where
  unbroken : '\n' ∉ last
  reads : s = above ++ '\n' :: (last ++ ['\n'])

theorem EndsInLine.unique {s above above' last last' : Text} (one : EndsInLine s above last)
    (other : EndsInLine s above' last') : above = above' ∧ last = last' := by
  have same : (above ++ '\n' :: last) ++ ['\n'] = (above' ++ '\n' :: last') ++ ['\n'] := by
    simpa using one.reads.symm.trans other.reads
  exact Text.split_last_unique one.unbroken other.unbroken (List.append_cancel_right same)

namespace Window

theorem break_notMem_caretLine (w : Window) (margin : Nat) : '\n' ∉ w.caretLine margin := by
  have plain : '\n' ∉ caret := by decide
  rw [caretLine, List.mem_append, not_or]
  exact ⟨Text.break_notMem_spaces _, plain⟩

/-- The last line of a block is its caret line, and what stands above it is context. -/
theorem endsInLine_render_iff {w : Window} {margin : Nat} {above last : Text} :
    EndsInLine (w.render margin) above last ↔ above = w.contextLine ∧ last = w.caretLine margin := by
  have drawn : EndsInLine (w.render margin) w.contextLine (w.caretLine margin) :=
    ⟨w.break_notMem_caretLine margin, rfl⟩
  constructor
  · intro reads
    exact reads.unique drawn
  · intro parts
    rw [parts.1, parts.2]
    exact drawn

/-- Context line and caret tell windows apart that are cut on the same sides. -/
theorem eq_of_contextLine_eq {w v : Window} (left : w.leftTruncated = v.leftTruncated)
    (right : w.rightTruncated = v.rightTruncated) (context : w.contextLine = v.contextLine)
    (column : w.caretColumn = v.caretColumn) : w = v := by
  have before : w.leftMarker = v.leftMarker := by rw [leftMarker, left, leftMarker]
  have behind : w.rightMarker = v.rightMarker := by rw [rightMarker, right, rightMarker]
  have text : w.text = v.text := by
    rw [contextLine, contextLine, before, behind] at context
    exact List.append_cancel_left (List.append_cancel_right context)
  cases w
  cases v
  simp_all

theorem render_inj {w v : Window} {margin : Nat} (left : w.leftTruncated = v.leftTruncated)
    (right : w.rightTruncated = v.rightTruncated) :
    w.render margin = v.render margin ↔ w = v := by
  constructor
  · intro same
    -- Both windows are read from the one block that they print.
    obtain ⟨context, offset⟩ := render_eq_iff.mp same
    have column : w.caretColumn = v.caretColumn := by
      simp only [caretOffset, leftMarker, left] at offset
      omega
    exact eq_of_contextLine_eq left right context column
  · intro same
    rw [same]

/-- The printed block tells the window, whatever the text holds. The last line of the block consists of
`caretOffset` spaces and the caret, and what stands above it is the left marker if there is one, the
text, and the right marker if there is one; there is no other way to read the block. So windows that
are cut on the same sides print the same block under a margin only if they are the same. -/
theorem block_determines_window :
    (∀ (margin : Nat) (w v : Window), w.leftTruncated = v.leftTruncated →
      w.rightTruncated = v.rightTruncated → (w.render margin = v.render margin ↔ w = v)) ∧
    ∀ (margin : Nat) (w : Window) (above last : Text),
      EndsInLine (w.render margin) above last ↔
        above = (if w.leftTruncated then leftEllipsis else []) ++ w.text ++
          (if w.rightTruncated then rightEllipsis else []) ∧
        last = Text.spaces (w.caretOffset margin) ++ caret := by
  constructor
  · intro margin w v left right
    exact render_inj left right
  · intro margin w above last
    exact endsInLine_render_iff

/-- One text holds a caret line of its own, drawn where the caret of the other stands. -/
theorem block_determines_window_of_imitated_caret :
    let w : Window := ⟨"a\n      ^--\n ...".toList, 2, true, true⟩
    let v : Window := ⟨"a".toList, 2, true, true⟩
    w.leftTruncated = v.leftTruncated ∧ w.rightTruncated = v.rightTruncated ∧
      w.render 0 ≠ v.render 0 ∧
      EndsInLine (w.render 0) "... a\n      ^--\n ... ...".toList "      ^--".toList := by
  intro w v
  obtain ⟨same, reads⟩ := block_determines_window
  have apart : w ≠ v := by decide
  refine ⟨rfl, rfl, ?_, ?_⟩
  · intro printed
    exact apart ((same 0 w v rfl rfl).mp printed)
  · exact (reads 0 w _ _).mpr ⟨by decide, by decide⟩

/-- A text that starts like an ellipsis prints like one that is cut on the left. -/
example : render ⟨"... a".toList, 4, false, false⟩ 0 = render ⟨"a".toList, 0, true, false⟩ 0 := by
  decide

end Window

end QueryCaret
