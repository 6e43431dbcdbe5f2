import QueryCaret.Proofs.Diagnostic.Caret

/-!
# What each field does to a report

Each field of a diagnostic has its own place in the report. Query, position and anchor make the window;
the padding stands at the start of the caret line and of the message line; kind and message make the
headline, which ends the report. So two diagnostics that differ in some fields have reports that differ
in the places of these fields only. While no query is bound there is nothing to lay out, and neither
padding nor anchor shows.

* `value_render_setPadding` — the margin stands before the caret line and before the message line;
* `hasCaret_alike` — kind and message leave context and caret line alone;
* `render_of_unbound` — without a query the layout is not looked at.
-/

set_option autoImplicit false

namespace QueryCaret

theorem Window.caretOffset_add (w : Window) (extra margin : Nat) :
    w.caretOffset (extra + margin) = extra + w.caretOffset margin := by
  simp only [caretOffset]
  omega

namespace Diagnostic

theorem events_setPadding (d : Diagnostic) (n : Nat) :
    (d.setPadding n).render.events = d.render.events := by
  rw [events_render, events_render]
  rfl

/-- The report under a margin: above the headline the same context, whatever the margin. -/
theorem value_render_setPadding {d : Diagnostic} {query : Text} (bound : d.query = some query)
    (n : Nat) :
    (d.setPadding n).render.value = (d.windowOn query).contextLine ++
      '\n' :: (Text.spaces ((d.windowOn query).caretOffset n) ++ caret) ++
      '\n' :: (Text.spaces n ++ d.headline) := by
  have reads := hasCaret_of_bound (d := d.setPadding n) bound
  rw [reads]
  simp [setPadding, windowOn, headline]

/-- Kind and message leave context and caret line alone. -/
theorem hasCaret_alike {d e : Diagnostic} {query : Text} (bound : e.query = some query)
    (position : e.position = d.position) (anchor : e.anchor = d.anchor)
    (padding : e.padding = d.padding) :
    e.HasCaret (d.windowOn query).contextLine ((d.windowOn query).caretOffset d.padding) := by
  have window : d.windowOn query = e.windowOn query := by
    rw [windowOn, windowOn, position, anchor]
  rw [window, ← padding]
  exact hasCaret_of_bound bound

theorem render_of_unbound {d : Diagnostic} (unbound : d.query = none) (padding : Nat)
    (anchor : Anchor) : { d with padding, anchor }.render = d.render := by
  simp only [render, unbound, shortReport, headline]

/-- What a field can do to a report. Widening the margin of a bound diagnostic, in whichever way it is
reached, puts as many spaces before its caret line and before its message line as the margin gets wider,
changes nothing else and tells nothing else. Two diagnostics that agree on query, position, anchor and
padding have the same report up to their headlines, and each ends with its own. The report of an unbound
one depends on neither padding nor anchor. -/
theorem fields_have_places :
    (∀ (d : Diagnostic) (query : Text) (access : Access) (narrow wide : Nat),
      d.query = some query → narrow ≤ wide →
      let inserted := Text.spaces (wide - narrow)
      ∃ context indent,
        (access.setPadding d narrow).render.value = context ++
          '\n' :: (Text.spaces indent ++ caret) ++ '\n' :: (Text.spaces narrow ++ d.headline) ∧
        (access.setPadding d wide).render.value = context ++
          '\n' :: (inserted ++ (Text.spaces indent ++ caret)) ++
          '\n' :: (inserted ++ (Text.spaces narrow ++ d.headline)) ∧
        (access.setPadding d wide).render.events = (access.setPadding d narrow).render.events) ∧
    (∀ (d e : Diagnostic) (query : Text), d.query = some query → e.query = some query →
      e.position = d.position → e.anchor = d.anchor → e.padding = d.padding →
      ∃ above,
        d.render.value = above ++ '\n' :: Text.spaces d.padding ++
          (d.kind.label ++ " Error: ".toList ++ d.message) ∧
        e.render.value = above ++ '\n' :: Text.spaces d.padding ++
          (e.kind.label ++ " Error: ".toList ++ e.message)) ∧
    ∀ d : Diagnostic, d.query = none → ∀ padding anchor,
      { d with padding, anchor }.render = d.render := by
  refine ⟨?_, ?_, ?_⟩
  · intro d query access narrow wide bound wider inserted
    obtain ⟨extra, rfl⟩ := Nat.exists_eq_add_of_le' wider
    have width : inserted = Text.spaces extra := by
      simp only [inserted, Nat.add_sub_cancel]
    rw [Access.setPadding_eq]
    refine ⟨(d.windowOn query).contextLine, (d.windowOn query).caretOffset narrow,
      value_render_setPadding bound narrow, ?_, ?_⟩
    · rw [value_render_setPadding bound, Window.caretOffset_add, width]
      simp only [Text.spaces_add, List.append_assoc]
    · rw [events_setPadding, events_setPadding]
  · intro d e query bound boundToo position anchor padding
    have one := hasCaret_of_bound bound
    have other := hasCaret_alike boundToo position anchor padding
    refine ⟨(d.windowOn query).contextLine ++ '\n' :: (d.windowOn query).caretLine d.padding,
      one.trans ?_, other.trans ?_⟩
    · simp [Window.caretLine, headline]
    · simp [Window.caretLine, headline, padding]
  · intro d unbound padding anchor
    exact render_of_unbound unbound padding anchor

/-- The query is cut on both sides, and one message looks like a caret line of its own. -/
theorem fields_have_places_in_cut_query :
    let query : Text := List.replicate 60 'a' ++ 'x' :: List.replicate 60 'b'
    let d : Diagnostic :=
      ⟨.execution, "no such\n   column".toList, .offset 60, 2, .untrimmed, some query⟩
    let e : Diagnostic := { d with kind := .syntactic, message := "\n  ^--\n".toList }
    (d.query = some query ∧ 2 ≤ 5 ∧ ∃ context indent,
      (d.setPadding 2).render.value = context ++
        '\n' :: (Text.spaces indent ++ caret) ++ '\n' :: (Text.spaces 2 ++ d.headline) ∧
      (d.setPadding 5).render.value = context ++
        '\n' :: (Text.spaces 3 ++ (Text.spaces indent ++ caret)) ++
        '\n' :: (Text.spaces 3 ++ (Text.spaces 2 ++ d.headline))) ∧
    (e.query = some query ∧ e.position = d.position ∧ e.anchor = d.anchor ∧
      e.padding = d.padding ∧ ∃ above,
        d.render.value = above ++ "\n  Execute Error: no such\n   column".toList ∧
        e.render.value = above ++ "\n  Syntax Error: \n  ^--\n".toList) ∧
    (d.shortReport = { d with query := none, padding := 9 }.render.value) := by
  intro query d e
  obtain ⟨margins, headlines, unbound⟩ := fields_have_places
  obtain ⟨context, indent, narrow, wide, -⟩ := margins d query .direct 2 5 rfl (by decide)
  obtain ⟨above, one, other⟩ := headlines d e query rfl rfl rfl rfl rfl
  refine ⟨⟨rfl, by decide, context, indent, narrow, wide⟩, ⟨rfl, rfl, rfl, rfl, above, ?_, ?_⟩, ?_⟩
  · rw [one, List.append_assoc]
    rfl
  · rw [other, List.append_assoc]
    rfl
  · rw [unbound { d with query := none } rfl 9 .untrimmed]
    rfl

end Diagnostic

end QueryCaret
