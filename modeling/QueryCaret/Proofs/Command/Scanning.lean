import QueryCaret.Proofs.Command.Filling
import QueryCaret.Proofs.Command.Group

/-!
# Reading group by group

The value of an option that stands in its own token, and the query, wait for the next token before they
go into the draft; a group with its value attached does not. What the draft comes to in the end does
not depend on this, since whatever waits is put in before anything else is read. So where a list of
tokens is read at all, it is read group by group into the draft, and it is the list of tokens of a line.

* `settle_or_value_of_draftOf` — what waits is put in first, unless it is an option without its value;
* `draftOf_group` — a group in front goes into the draft, then the rest is read;
* `group_of_draftOf` — only a group or a terminator can stand in front;
* `draftOf_line`, `line_of_draftOf` — the tokens of a legible line are read as what it says, and only
  such tokens are read.
-/

set_option autoImplicit false

namespace QueryCaret

namespace Scan

theorem word_congr {s s' : Scan} (same : s.settle = s'.settle) (query : s.hasQuery = s'.hasQuery)
    (v : ByteText) : s.word v = s'.word v := by
  simp only [word, same, query]

theorem long_congr {s s' : Scan} (same : s.settle = s'.settle) (name : Text)
    (value : Option ByteText) : s.long name value = s'.long name value := by
  simp only [long, attached, expect, execute, help, same]

theorem short_congr {s s' : Scan} (same : s.settle = s'.settle) (letter : Char)
    (rest : ByteText) : s.short letter rest = s'.short letter rest := by
  simp only [short, attached, expect, help, same]

/-- The draft that reading some tokens leads to. -/
def draftOf (s : Scan) (tokens : List ByteText) : Except Usage Draft := do
  (← s.readAll tokens).settle

/-- What is read next depends on the draft that a scan stands for, not on how much of it is there. -/
theorem draftOf_congr {s s' : Scan} (ready : s.Ready) (ready' : s'.Ready)
    (same : s.settle = s'.settle) (query : s.hasQuery = s'.hasQuery) (tokens : List ByteText) :
    s.draftOf tokens = s'.draftOf tokens := by
  cases tokens with
  | nil => exact same
  | cons token later =>
    simp only [draftOf]
    rcases Token.look_cases token with rfl | ⟨name, nonempty, plain, rfl⟩ | ⟨name, v, plain, rfl⟩ |
      ⟨letter, rest, other, rfl⟩ | apart | unreadable
    · cases later with
      | nil => exact same
      | cons v more =>
        simp only [readAll_terminator, List.foldlM_cons, word_congr same query]
    · rw [readAll_name nonempty plain, readAll_name nonempty plain, long_congr same]
    · rw [readAll_nameEquals plain, readAll_nameEquals plain, long_congr same]
    · rw [readAll_cluster other rest ready, readAll_cluster other rest ready', short_congr same]
    · rw [readAll_word apart ready, readAll_word apart ready', word_congr same query]
    · rw [readAll_unreadable unreadable, readAll_unreadable unreadable]

theorem hasQuery_of_settle {s : Scan} {d : Draft} (settled : s.settle = .ok d) :
    s.hasQuery = d.query.isSome := by
  obtain ⟨draft, pending⟩ := s
  cases pending with
  | nothing => cases settled; rfl
  | expecting p => cases settled
  | given p v => exact (congrArg Option.isSome (Draft.query_put settled)).symm
  | query v => exact (Draft.query_putQuery settled).symm

/-- Where the pending argument can be put into the draft, reading goes on as if it were there. -/
theorem draftOf_of_settle {s : Scan} (ready : s.Ready) {d : Draft} (settled : s.settle = .ok d)
    (tokens : List ByteText) : s.draftOf tokens = draftOf ⟨d, .nothing⟩ tokens :=
  draftOf_congr ready (ready_nothing d) settled (hasQuery_of_settle settled) tokens

theorem settle_of_bind {s : Scan} {α : Type} {f : Draft → Except Usage α} {a : α}
    (read : s.settle >>= f = .ok a) : ∃ d, s.settle = .ok d := by
  obtain ⟨d, settled, -⟩ := bind_eq_ok_iff.mp read
  exact ⟨d, settled⟩

theorem word_eq_ok_iff {s after : Scan} {v : ByteText} :
    s.word v = .ok after ↔
      s.hasQuery = false ∧ ∃ d, s.settle = .ok d ∧ after = ⟨d, .query v⟩ := by
  unfold word
  cases s.hasQuery with
  | true => simp
  | false =>
    simp only [Bool.false_eq_true, if_false, true_and, bind_eq_ok_iff, pure, Except.pure,
      Except.ok.injEq]
    exact exists_congr fun d => and_congr_right fun _ => eq_comm

theorem settle_of_word {s after : Scan} {v : ByteText} (read : s.word v = .ok after) :
    ∃ d, s.settle = .ok d := by
  obtain ⟨-, d, settled, -⟩ := word_eq_ok_iff.mp read
  exact ⟨d, settled⟩

theorem settle_of_flag {s after : Scan} {value : Option ByteText} {f : Draft → Except Usage Scan}
    (read : flag value (s.settle >>= f) = .ok after) : ∃ d, s.settle = .ok d := by
  unfold flag at read
  split at read
  · cases read
  · exact settle_of_bind read

theorem settle_of_long {s after : Scan} {name : Text} {value : Option ByteText}
    (read : s.long name value = .ok after) : ∃ d, s.settle = .ok d := by
  unfold long at read
  split at read
  · split at read <;> exact settle_of_bind read
  · split at read
    · exact settle_of_flag read
    · split at read
      · exact settle_of_flag read
      · cases read

theorem settle_of_short {s after : Scan} {letter : Char} {rest : ByteText}
    (read : s.short letter rest = .ok after) : ∃ d, s.settle = .ok d := by
  unfold short at read
  split at read
  · split at read <;> exact settle_of_bind read
  · split at read
    · exact settle_of_bind read
    · cases read

/-- What is pending goes into the draft before anything else is read, unless it is an option that still
waits for its value; then the value comes next. -/
theorem settle_or_value_of_draftOf {tokens : List ByteText} {last : Draft} :
    ∀ {s : Scan}, s.draftOf tokens = .ok last → (∃ d, s.settle = .ok d) ∨
      ∃ p v later, s.pending = .expecting p ∧ tokens = v :: later ∧ p.TakesApartBytes v := by
  induction tokens with
  | nil => exact fun read => .inl ⟨last, read⟩
  | cons token later ih =>
    intro s read
    obtain ⟨after, read, settled⟩ := bind_eq_ok_iff.mp read
    rcases Token.look_cases token with rfl | ⟨name, nonempty, plain, rfl⟩ | ⟨name, v, plain, rfl⟩ |
      ⟨letter, rest, other, rfl⟩ | apart | unreadable
    · rw [readAll_terminator] at read
      cases later with
      | nil =>
        obtain rfl := Except.ok.inj read
        exact .inl ⟨last, settled⟩
      | cons v more =>
        obtain ⟨next, first, -⟩ := bind_eq_ok_iff.mp read
        exact .inl (settle_of_word first)
    · rw [readAll_name nonempty plain] at read
      obtain ⟨next, first, -⟩ := bind_eq_ok_iff.mp read
      exact .inl (settle_of_long first)
    · rw [readAll_nameEquals plain] at read
      obtain ⟨next, first, -⟩ := bind_eq_ok_iff.mp read
      exact .inl (settle_of_long first)
    · rw [readAll_dash other] at read
      obtain ⟨next, first, read⟩ := bind_eq_ok_iff.mp read
      split at first
      · -- The number is only pending here. That it has digits shows when it goes into the draft.
        rename_i number
        obtain rfl := Except.ok.inj first
        have waiting : s.pending = .expecting .position := by
          simp only [takesAsNumber, Bool.and_eq_true, decide_eq_true_eq] at number
          exact number.1
        rcases ih (bind_eq_ok_iff.mpr ⟨after, read, settled⟩) with ⟨d, put⟩ | ⟨_, _, _, expecting, -⟩
        · obtain ⟨t, n, whole, numeral⟩ := Draft.signed?_of_put put
          obtain rfl : '-' :: letter :: rest.text = t := congrArg ByteText.text whole
          have digits := Text.isDigits_of_signed?_minus numeral
          exact .inr ⟨.position, _, later, waiting, rfl, .inr ⟨_, whole,
            .inr ⟨rfl, letter :: rest.text, rfl, Text.isSome_natural?_iff.mpr digits⟩⟩⟩
        · cases expecting
      · exact .inl (settle_of_short first)
    · rcases s.ready_or_expecting with ready | ⟨p, waiting⟩
      · rw [readAll_word apart ready] at read
        obtain ⟨next, first, -⟩ := bind_eq_ok_iff.mp read
        exact .inl (settle_of_word first)
      · exact .inr ⟨p, token, later, waiting, rfl, .inl apart⟩
    · rw [readAll_unreadable unreadable] at read
      cases read

theorem draftOf_eq_ok_iff {s : Scan} (ready : s.Ready) {tokens : List ByteText} {last : Draft} :
    s.draftOf tokens = .ok last ↔
      ∃ d, s.settle = .ok d ∧ draftOf ⟨d, .nothing⟩ tokens = .ok last := by
  constructor
  · intro read
    rcases settle_or_value_of_draftOf read with ⟨d, settled⟩ | ⟨p, _, _, waiting, -⟩
    · exact ⟨d, settled, draftOf_of_settle ready settled tokens ▸ read⟩
    · exact absurd waiting (ready p)
  · rintro ⟨d, settled, read⟩
    rw [draftOf_of_settle ready settled]
    exact read

/-- A group is recognized and then goes into the draft, or is refused at once. In the second case the
draft does not take it either. -/
theorem take_nothing (d : Draft) (g : ByteGroup) :
    (∃ s, take ⟨d, .nothing⟩ g = .ok s ∧ s.Ready ∧ s.settle = d.add g) ∨
      ∃ early late, take ⟨d, .nothing⟩ g = .error early ∧ d.add g = .error late := by
  -- What goes into the draft at once leaves nothing pending.
  have direct (x : Except Usage Draft) :
      (∃ s, (x >>= fun d => pure ⟨d, .nothing⟩ : Except Usage Scan) = .ok s ∧ s.Ready ∧
        s.settle = x) ∨
      ∃ early late, (x >>= fun d => pure ⟨d, .nothing⟩ : Except Usage Scan) = .error early ∧
        x = .error late := by
    cases x with
    | error usage => exact .inr ⟨usage, usage, rfl, rfl⟩
    | ok d => exact .inl ⟨⟨d, .nothing⟩, rfl, ready_nothing d, rfl⟩
  cases g with
  | option p spelling v =>
    cases spelling with
    | longEquals | shortEquals | shortJoined => exact direct (d.put p v)
    | longApart | shortApart => exact .inl ⟨⟨d, .given p v⟩, rfl, ready_given d p v, rfl⟩
  | execute => exact direct d.putExecute
  | query text =>
    cases given : d.query with
    | none =>
      have word : take ⟨d, .nothing⟩ (.query text) = .ok ⟨d, .query text⟩ := by
        simp only [take, word, hasQuery, given]
        rfl
      exact .inl ⟨_, word, ready_query d _, rfl⟩
    | some other =>
      have refused : take ⟨d, .nothing⟩ (.query text) = .error .unknownArgument := by
        simp only [take, word, hasQuery, given]
        rfl
      have conflict : d.add (.query text) = .error .conflict := by
        simp only [Draft.add, Draft.putQuery, given]
        rfl
      exact .inr ⟨_, _, refused, conflict⟩

theorem take_bind_draftOf (d : Draft) (g : ByteGroup) (later : List ByteText) (last : Draft) :
    (take ⟨d, .nothing⟩ g >>= fun s => s.draftOf later) = .ok last ↔
      ∃ mid, d.add g = .ok mid ∧ draftOf ⟨mid, .nothing⟩ later = .ok last := by
  rcases take_nothing d g with ⟨s, taken, ready, settled⟩ | ⟨early, late, refused, fails⟩
  · rw [taken, ← settled]
    exact draftOf_eq_ok_iff ready
  · rw [refused, fails]
    exact ⟨nofun, fun ⟨_, ok, _⟩ => nomatch ok⟩

/-- A group in front goes into the draft before anything else. -/
theorem draftOf_group {g : ByteGroup} (legible : g.Legible) (d : Draft) (later : List ByteText)
    (last : Draft) :
    draftOf ⟨d, .nothing⟩ (g.tokens ++ later) = .ok last ↔
      ∃ mid, d.add g = .ok mid ∧ draftOf ⟨mid, .nothing⟩ later = .ok last := by
  rw [← take_bind_draftOf, draftOf, readAll_group (ready_nothing d) legible, bind_assoc]
  rfl

/-- Where an option waits for its value, the value comes next. -/
theorem value_of_draftOf {d : Draft} {p : Parameter} {tokens : List ByteText} {last : Draft}
    (read : draftOf ⟨d, .expecting p⟩ tokens = .ok last) :
    ∃ v later, tokens = v :: later ∧ p.TakesApartBytes v := by
  rcases settle_or_value_of_draftOf read with ⟨d', settled⟩ | ⟨_, v, later, ⟨⟩, same, apart⟩
  · cases settled
  · exact ⟨v, later, same, apart⟩

/-- A long option that stands alone waits for its value, unless it is the flag. -/
theorem name_cases {s after : Scan} {name : Text} (read : s.long name none = .ok after) :
    (∃ p : Parameter, p.long = name ∧ s.expect p = .ok after) ∨ name = executeName := by
  unfold long at read
  split at read
  · rename_i p known
    exact .inl ⟨p, Parameter.ofLong?_eq_some_iff.mp known, read⟩
  · split at read
    · exact .inr ‹_›
    · split at read
      · obtain ⟨d, -, helped⟩ := bind_eq_ok_iff.mp read
        cases helped
      · cases read

theorem nameEquals_cases {s after : Scan} {name : Text} {v : ByteText}
    (read : s.long name (some v) = .ok after) : ∃ p : Parameter, p.long = name := by
  unfold long at read
  split at read
  · rename_i p known
    exact ⟨p, Parameter.ofLong?_eq_some_iff.mp known⟩
  · split at read
    · cases read
    · split at read <;> cases read

/-- A short option that stands alone waits for its value. -/
theorem cluster_cases {s after : Scan} {letter : Char} {rest : ByteText}
    (read : s.short letter rest = .ok after) :
    ∃ p : Parameter, p.short? = some letter ∧
      ((∃ v : ByteText, rest = v.withText ('=' :: v.text)) ∨
        (rest ≠ .ofText [] ∧ rest.text.head? ≠ some '=') ∨
        rest = .ofText [] ∧ s.expect p = .ok after) := by
  unfold short at read
  split at read
  · rename_i p known
    refine ⟨p, Parameter.ofShort?_eq_some_iff.mp known, ?_⟩
    by_cases equals : rest.text.head? = some '='
    · obtain ⟨text, bytes, ended⟩ := rest
      obtain ⟨v, rfl⟩ := List.head?_eq_some_iff.mp equals
      exact .inl ⟨⟨v, bytes, ended⟩, rfl⟩
    · by_cases empty : rest = .ofText []
      · subst empty
        exact .inr (.inr ⟨rfl, read⟩)
      · exact .inr (.inl ⟨empty, equals⟩)
  · split at read
    · obtain ⟨d, -, helped⟩ := bind_eq_ok_iff.mp read
      cases helped
    · cases read

/-- What a scan that waits for nothing reads first is a whole group, unless it is the terminator. -/
theorem group_of_draftOf {d : Draft} {token : ByteText} {later : List ByteText} {last : Draft}
    (read : draftOf ⟨d, .nothing⟩ (token :: later) = .ok last) :
    (∃ (g : ByteGroup) (rest : List ByteText), g.Legible ∧ token :: later = g.tokens ++ rest) ∨
      token = .ofText terminator ∧ (later = [] ∨ ∃ query, later = [query]) := by
  -- An option without a value in its own token has it in the next one.
  have behind {p : Parameter} {s : Scan} (expecting : expect ⟨d, .nothing⟩ p = .ok s)
      (rest : s.draftOf later = .ok last) : ∃ v more, later = v :: more ∧ p.TakesApartBytes v := by
    obtain rfl := Except.ok.inj expecting
    exact value_of_draftOf rest
  obtain ⟨after, read, settled⟩ := bind_eq_ok_iff.mp read
  rcases Token.look_cases token with rfl | ⟨name, nonempty, plain, rfl⟩ | ⟨name, v, plain, rfl⟩ |
    ⟨letter, rest, other, rfl⟩ | apart | unreadable
  · rw [readAll_terminator] at read
    refine .inr ⟨rfl, ?_⟩
    match later with
    | [] => exact .inl rfl
    | [query] => exact .inr ⟨query, rfl⟩
    | query :: second :: more =>
      obtain ⟨one, first, read⟩ := bind_eq_ok_iff.mp read
      obtain ⟨two, again, -⟩ := bind_eq_ok_iff.mp read
      obtain ⟨-, d', -, rfl⟩ := word_eq_ok_iff.mp first
      cases (word_eq_ok_iff.mp again).1
  · rw [readAll_name nonempty plain] at read
    obtain ⟨next, first, others⟩ := bind_eq_ok_iff.mp read
    rcases name_cases first with ⟨p, rfl, expecting⟩ | rfl
    · obtain ⟨v, more, rfl, apart⟩ := behind expecting (bind_eq_ok_iff.mpr ⟨after, others, settled⟩)
      exact .inl ⟨.option p .longApart v, more, apart, rfl⟩
    · exact .inl ⟨.execute, later, trivial, rfl⟩
  · rw [readAll_nameEquals plain] at read
    obtain ⟨next, first, -⟩ := bind_eq_ok_iff.mp read
    obtain ⟨p, rfl⟩ := nameEquals_cases first
    exact .inl ⟨.option p .longEquals v, later, trivial, rfl⟩
  · rw [readAll_cluster other rest (ready_nothing d)] at read
    obtain ⟨next, first, others⟩ := bind_eq_ok_iff.mp read
    obtain ⟨p, known, shape⟩ := cluster_cases first
    have letters := Spelling.shortName_eq known
    have hasLetter : p.short?.isSome = true := by rw [known]; rfl
    rcases shape with ⟨v, rfl⟩ | ⟨nonempty, plain⟩ | ⟨rfl, expecting⟩
    · refine .inl ⟨.option p .shortEquals v, later, hasLetter, ?_⟩
      simp only [ByteGroup.tokens, Spelling.bytes, letters, List.cons_append, List.nil_append]
      rfl
    · refine .inl ⟨.option p .shortJoined rest, later, ⟨hasLetter, nonempty, plain⟩, ?_⟩
      simp only [ByteGroup.tokens, Spelling.bytes, letters, List.cons_append, List.nil_append]
    · obtain ⟨v, more, rfl, apart⟩ := behind expecting (bind_eq_ok_iff.mpr ⟨after, others, settled⟩)
      refine .inl ⟨.option p .shortApart v, more, ⟨hasLetter, apart⟩, ?_⟩
      simp only [ByteGroup.tokens, Spelling.bytes, letters, List.cons_append, List.nil_append]
      rfl
  · exact .inl ⟨.query token, later, apart, rfl⟩
  · rw [readAll_unreadable unreadable] at read
    cases read

/-- What stands at the end of a line is read as what it says. -/
theorem draftOf_ending (d : Draft) (ending : Option (Option ByteText)) (last : Draft) :
    draftOf ⟨d, .nothing⟩ (ByteLine.tokens ⟨[], ending⟩) = .ok last ↔
      (ByteLine.said ⟨[], ending⟩).foldlM Draft.add d = .ok last := by
  match ending with
  | none | some none => exact Iff.rfl
  | some (some query) =>
    have read : draftOf ⟨d, .nothing⟩ (ByteLine.tokens ⟨[], some (some query)⟩) =
        take ⟨d, .nothing⟩ (.query query) >>= fun s => s.draftOf [] := by
      rw [draftOf]
      simp only [ByteLine.tokens, List.flatMap_nil, List.nil_append, readAll_terminator,
        List.foldlM_cons, List.foldlM_nil, bind_pure]
      rfl
    rw [read, take_bind_draftOf, ← bind_eq_ok_iff]
    rfl

/-- The tokens of a legible line are read as what it says. -/
theorem draftOf_line {l : ByteLine} (legible : ∀ g ∈ l.groups, g.Legible) (d last : Draft) :
    draftOf ⟨d, .nothing⟩ l.tokens = .ok last ↔ l.said.foldlM Draft.add d = .ok last := by
  obtain ⟨groups, ending⟩ := l
  induction groups generalizing d with
  | nil => exact draftOf_ending d ending last
  | cons g groups ih =>
    obtain ⟨first, others⟩ := List.forall_mem_cons.mp legible
    rw [ByteLine.tokens_cons, draftOf_group first, ByteLine.said, List.cons_append, List.foldlM_cons,
      bind_eq_ok_iff]
    exact exists_congr fun mid => and_congr_right fun _ => ih mid others

/-- Only the tokens of a legible line are read. -/
theorem line_of_draftOf {tokens : List ByteText} {d last : Draft}
    (read : draftOf ⟨d, .nothing⟩ tokens = .ok last) :
    ∃ l : ByteLine, l.tokens = tokens ∧ ∀ g ∈ l.groups, g.Legible := by
  match tokens with
  | [] => exact ⟨⟨[], none⟩, rfl, nofun⟩
  | token :: later =>
    rcases group_of_draftOf read with ⟨g, rest, legible, same⟩ | ⟨rfl, rfl | ⟨query, rfl⟩⟩
    · rw [same] at read
      obtain ⟨mid, -, others⟩ := (draftOf_group legible d rest last).mp read
      have shorter : rest.length < (token :: later).length := by
        have first := g.length_tokens_pos
        rw [same, List.length_append]
        omega
      obtain ⟨l, rfl, all⟩ := line_of_draftOf others
      exact ⟨⟨g :: l.groups, l.ending⟩, by rw [same, ByteLine.tokens_cons],
        List.forall_mem_cons.mpr ⟨legible, all⟩⟩
    · exact ⟨⟨[], some none⟩, rfl, nofun⟩
    · exact ⟨⟨[], some (some query)⟩, rfl, nofun⟩
termination_by tokens.length
decreasing_by exact shorter

end Scan

end QueryCaret
