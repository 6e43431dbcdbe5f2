import QueryCaret.Window.Basic

/-!
# Blanks around a query

A window is cut out of the trimmed query, so blanks put around a query change neither the window nor
what is told about it. An offset into the query as it was given has to move with the blanks put before
it; moved onto the trimmed query it is then the same offset again, also where it stood among blanks of
the query itself. Without a visible character there is nothing to tell the blanks behind a query from
those before it, and they are all counted.

* `compute_of_trim_eq` — the window depends on the trimmed query only;
* `realign_shifted` — an offset that moves with the blanks in front is realigned to the same one.
-/

set_option autoImplicit false

namespace QueryCaret

theorem Anchor.realign_shifted {before query : Text} (behind : Text)
    (blank : ∀ c ∈ before, Text.isBlank c = true) (visible : ∃ c ∈ query, Text.isBlank c = false)
    (offset : Nat) :
    realign .untrimmed (before ++ query ++ behind) (.offset (before.length + offset)) =
      realign .untrimmed query (.offset offset) := by
  have counted : Text.leadingBlanks (before ++ query ++ behind) =
      before.length + query.leadingBlanks := by
    rw [List.append_assoc, Text.leadingBlanks_append_of_blank blank,
      Text.leadingBlanks_append_of_visible visible]
  simp only [realign, counted, Nat.add_sub_add_left]

namespace Window

theorem compute_of_trim_eq {query other : Text} (same : other.trim = query.trim)
    (position : Position) : compute other position = compute query position := by
  rw [compute, same, compute]

/-- What is told about the window depends on the trimmed query only, too. -/
theorem observe_of_trim_eq {query other : Text} (same : other.trim = query.trim)
    (position : Position) : observe other position = observe query position := by
  simp only [observe, compute_of_trim_eq same position, same]

/-- Blanks around a query change nothing about its window, for a failure at any position in its
trimmed text; nor about a window drawn with a margin, for a failure at its end, or for an offset that
counts from the start of the query and is moved along with it. Only the last needs a character to
hold on to. -/
theorem window_unmoved_by_blanks {before behind : Text}
    (blankBefore : ∀ c ∈ before, Text.isBlank c = true)
    (blankBehind : ∀ c ∈ behind, Text.isBlank c = true) (query : Text) :
    (∀ position, compute (before ++ query ++ behind) position = compute query position) ∧
    (∀ position margin,
      renderWindow (before ++ query ++ behind) position margin = renderWindow query position margin) ∧
    (∀ anchor, computeAnchored (before ++ query ++ behind) .atEnd anchor =
      computeAnchored query .atEnd anchor) ∧
    ((∃ c ∈ query, Text.isBlank c = false) → ∀ offset,
      computeAnchored (before ++ query ++ behind) (.offset (before.length + offset)) .untrimmed =
        computeAnchored query (.offset offset) .untrimmed) := by
  have same := Text.trim_append_of_blank blankBefore blankBehind query
  refine ⟨?_, ?_, ?_, ?_⟩
  · exact compute_of_trim_eq same
  · intro position margin
    rw [renderWindow, observe_of_trim_eq same, renderWindow]
  · intro anchor
    -- The end is the end, whatever the offsets count from.
    exact compute_of_trim_eq same .atEnd
  · intro visible offset
    rw [computeAnchored, Anchor.realign_shifted behind blankBefore visible,
      compute_of_trim_eq same, computeAnchored]

/-- The failure stands among the blanks of the query itself, and those put before it are wide. -/
theorem window_unmoved_by_wide_blanks :
    let before : Text := "\u3000\t".toList
    let query : Text := "\u00a0 SELECT x".toList
    let behind : Text := " \u2028".toList
    (∀ c ∈ before, Text.isBlank c = true) ∧ (∀ c ∈ behind, Text.isBlank c = true) ∧
      (∃ c ∈ query, Text.isBlank c = false) ∧
      compute (before ++ query ++ behind) (.offset 7) = compute query (.offset 7) ∧
      computeAnchored (before ++ query ++ behind) (.offset 3) .untrimmed =
        computeAnchored query (.offset 1) .untrimmed := by
  intro before query behind
  have blankBefore : ∀ c ∈ before, Text.isBlank c = true := List.all_eq_true.mp (by decide)
  have blankBehind : ∀ c ∈ behind, Text.isBlank c = true := List.all_eq_true.mp (by decide)
  have visible : ∃ c ∈ query, Text.isBlank c = false := ⟨'S', by decide, by decide⟩
  obtain ⟨trimmed, -, -, shifted⟩ := window_unmoved_by_blanks blankBefore blankBehind query
  exact ⟨blankBefore, blankBehind, visible, trimmed (.offset 7), shifted visible 1⟩

/-- In a query of blanks alone the one behind counts, and the offset moves. -/
example : computeAnchored "  ".toList (.offset 2) .untrimmed ≠
    computeAnchored " ".toList (.offset 2) .untrimmed := by decide

end Window

end QueryCaret
