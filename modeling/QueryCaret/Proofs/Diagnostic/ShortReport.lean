import QueryCaret.Diagnostic.Basic

/-!
# Reading a short report

While no query is bound a report is one headline and the position as a number. The message between them
is any text and may look like either, so the report is read from both ends: the number is what stands
behind the last space, since no number has a space in it, and the label in front starts with a letter
that only its kind has. What is left is the message.

* `behindLast_shortReport` — the last word is the position;
* `headline_inj` — the headline tells kind and message;
* `shortReport_inj` — the short report tells kind, message and position.
-/

set_option autoImplicit false

namespace QueryCaret.Diagnostic

theorem behindLast_shortReport (d : Diagnostic) :
    d.shortReport.behindLast ' ' = d.position.display := by
  have spaced : d.shortReport = (d.headline ++ " at".toList) ++ ' ' :: d.position.display := by
    simp [shortReport]
  rw [spaced]
  exact Text.behindLast_append (Text.space_notMem_signedDecimal _) _

theorem headline_inj {d e : Diagnostic} :
    d.headline = e.headline ↔ d.kind = e.kind ∧ d.message = e.message := by
  constructor
  · intro same
    have kind : d.kind = e.kind := by
      rw [headline, headline, List.append_assoc, List.append_assoc] at same
      exact Kind.eq_of_label_append same
    rw [headline, headline, kind] at same
    exact ⟨kind, List.append_cancel_left same⟩
  · intro fields
    rw [headline, headline, fields.1, fields.2]

theorem shortReport_inj {d e : Diagnostic} : d.shortReport = e.shortReport ↔
    d.kind = e.kind ∧ d.message = e.message ∧ d.position = e.position := by
  constructor
  · intro same
    have display : d.position.display = e.position.display := by
      rw [← behindLast_shortReport, same, behindLast_shortReport]
    have front : d.headline = e.headline := by
      rw [shortReport, shortReport, display] at same
      exact List.append_cancel_right (List.append_cancel_right same)
    obtain ⟨kind, message⟩ := headline_inj.mp front
    exact ⟨kind, message, Position.display_injective display⟩
  · intro fields
    obtain ⟨kind, message, position⟩ := fields
    rw [shortReport, shortReport, headline_inj.mpr ⟨kind, message⟩, position]

theorem value_render_of_unbound {d : Diagnostic} (unbound : d.query = none) :
    d.render.value = d.shortReport := by
  rw [value_render, report, unbound]

/-- The report of an unbound diagnostic loses nothing, whatever the message looks like: two of them
have the same report only if they agree on kind, message and position. The numbers from `-1` on are
positions, and the others that fit a signed word are not; a position with such a number is reported with
the numeral of it behind the last space, and reading the numeral gives the position back. An offset is
never written like the end. -/
theorem short_report_loses_nothing :
    (∀ d e : Diagnostic, d.query = none → e.query = none →
      (d.render.value = e.render.value ↔
        d.kind = e.kind ∧ d.message = e.message ∧ d.position = e.position)) ∧
    (∀ n : Int, -signedLimit ≤ n → n < signedLimit →
      ((∃ p, Position.ofRaw n = .ok p) ↔ -1 ≤ n) ∧
      ∀ p, Position.ofRaw n = .ok p → ∀ d : Diagnostic, d.query = none → d.position = p →
        d.render.value.behindLast ' ' = Text.signedDecimal n ∧
        (Text.signed? (d.render.value.behindLast ' ')).map Position.ofRaw = some (.ok p)) ∧
    ∀ k, (Position.offset k).display ≠ Position.atEnd.display := by
  refine ⟨?_, ?_, ?_⟩
  · intro d e unbound unboundToo
    rw [value_render_of_unbound unbound, value_render_of_unbound unboundToo]
    exact shortReport_inj
  · intro n low high
    refine ⟨Position.exists_ofRaw_iff, ?_⟩
    intro p read d unbound position
    have numeral : d.render.value.behindLast ' ' = Text.signedDecimal n := by
      rw [value_render_of_unbound unbound, behindLast_shortReport, position, Position.display,
        ← Position.ofRaw_eq_ok_iff.mp read]
    refine ⟨numeral, ?_⟩
    rw [numeral, Text.signed?_signedDecimal low high, Option.map_some, read]
  · intro k same
    cases Position.display_injective same

/-- One message ends like the report of the other, and a message with a numeral of its own stands before
the mark of the end. -/
theorem short_report_loses_nothing_in_imitations :
    let d : Diagnostic := ⟨.syntactic, "a at 1".toList, .offset 2, 7, .trimmed, none⟩
    let e : Diagnostic := ⟨.syntactic, "a".toList, .offset 1, 7, .trimmed, none⟩
    let f : Diagnostic := ⟨.execution, "Syntax Error: b\n at 12 ".toList, .atEnd, 0, .untrimmed, none⟩
    d.query = none ∧ e.query = none ∧ f.query = none ∧ d.render.value ≠ e.render.value ∧
      -signedLimit ≤ -1 ∧ -1 < signedLimit ∧ Position.ofRaw (-1) = .ok f.position ∧
      f.render.value.behindLast ' ' = "-1".toList ∧
      (Text.signed? (f.render.value.behindLast ' ')).map Position.ofRaw = some (.ok .atEnd) := by
  intro d e f
  obtain ⟨alike, numbers, -⟩ := short_report_loses_nothing
  have apart : d.message ≠ e.message := by decide
  obtain ⟨-, read⟩ := numbers (-1) (by decide) (by decide)
  obtain ⟨numeral, back⟩ := read .atEnd rfl f rfl rfl
  refine ⟨rfl, rfl, rfl, ?_, by decide, by decide, rfl, numeral, back⟩
  intro same
  exact apart ((alike d e rfl rfl).mp same).2.1

end QueryCaret.Diagnostic
