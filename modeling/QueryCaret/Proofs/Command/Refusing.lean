import QueryCaret.Proofs.Command.Places
import QueryCaret.Proofs.Command.Scanning

/-!
# What reading refuses

Groups that go into the draft are read whatever stands behind them. What the draft refuses is reported
with the draft's own reason, though it may still wait when the next group is read: that group puts it in
first. Only a second query is found out at sight and never gets to the draft; so is an option that nobody
knows, and the flag that asks for help ends the reading where it stands.

* `draftOf_groups` — groups in front that fill in a draft are read first;
* `draftOf_line_eq` — with one query at most, a line is read as what it says, refusals included;
* `draftOf_secondQuery`, `draftOf_unknown`, `draftOf_help` — what is found out at sight.
-/

set_option autoImplicit false

namespace QueryCaret

/-- Whether a long option has a name that `render` knows. -/
def KnownName (name : Text) : Prop :=
  (∃ p : Parameter, p.long = name) ∨ name = Scan.executeName ∨ name = Scan.helpName

/-- Whether a short option has a letter that `render` knows. -/
def KnownLetter (letter : Char) : Prop := (∃ p : Parameter, p.short? = some letter) ∨ letter = 'h'

/-- A token that looks like an option, by a name or a letter that is not known. What looks like a
negative number is one of these where nothing waits for a number. -/
inductive UnknownOption : ByteText → Prop
  | name {name : Text} (nonempty : name ≠ []) (plain : '=' ∉ name) (unknown : ¬ KnownName name) :
      UnknownOption (.ofText ('-' :: '-' :: name))
  | nameEquals {name : Text} (v : ByteText) (plain : '=' ∉ name) (unknown : ¬ KnownName name) :
      UnknownOption (v.withText ('-' :: '-' :: (name ++ '=' :: v.text)))
  | letter {letter : Char} (rest : ByteText) (other : letter ≠ '-') (unknown : ¬ KnownLetter letter) :
      UnknownOption (rest.withText ('-' :: letter :: rest.text))
  | unreadable {token : ByteText} (unreadable : Token.Unreadable token) : UnknownOption token

/-- The flag that asks for help, in both its spellings. -/
def helpTokens : List ByteText := [.ofText ['-', 'h'], .ofText ('-' :: '-' :: Scan.helpName)]

/-- Together with what the draft has, the groups give one query at most. -/
structure Draft.OneQuery (d : Draft) (groups : List ByteGroup) : Prop where
  apart : groups.Pairwise fun g h => g.place = .query → h.place ≠ .query
  free : d.Taken .query → ∀ g ∈ groups, g.place ≠ .query

namespace Draft.OneQuery

variable {d : Draft} {g : ByteGroup} {groups : List ByteGroup}

theorem head (one : d.OneQuery (g :: groups)) (query : g.place = .query) : ¬ d.Taken .query :=
  fun taken => one.free taken g List.mem_cons_self query

theorem others (one : d.OneQuery (g :: groups)) (given : g.place = .query ∨ d.Taken .query) :
    ∀ h ∈ groups, h.place ≠ .query := by
  intro h member
  rcases given with query | taken
  · exact (List.pairwise_cons.mp one.apart).1 h member query
  · exact one.free taken h (List.mem_cons_of_mem g member)

theorem tail {mid : Draft} (one : d.OneQuery (g :: groups)) (added : d.add g = .ok mid) :
    mid.OneQuery groups where
  apart := (List.pairwise_cons.mp one.apart).2
  free := by
    intro taken
    have given := (taken_of_add added .query).mp taken
    exact one.others (given.imp_left Eq.symm)

end Draft.OneQuery

namespace Scan

/-- A group that goes into the draft is read, whatever stands behind it. -/
theorem draftOf_added {g : ByteGroup} (legible : g.Legible) {d mid : Draft}
    (added : d.add g = .ok mid) (later : List ByteText) :
    draftOf ⟨d, .nothing⟩ (g.tokens ++ later) = draftOf ⟨mid, .nothing⟩ later := by
  rcases take_nothing d g with ⟨s, taken, ready, settled⟩ | ⟨early, late, -, fails⟩
  · rw [draftOf, readAll_group (ready_nothing d) legible, taken]
    exact draftOf_of_settle ready (settled.trans added) later
  · rw [added] at fails
    cases fails

theorem draftOf_groups {groups : List ByteGroup} (legible : ∀ g ∈ groups, g.Legible) {d mid : Draft}
    (filled : groups.foldlM Draft.add d = .ok mid) (later : List ByteText) :
    draftOf ⟨d, .nothing⟩ (groups.flatMap ByteGroup.tokens ++ later) =
      draftOf ⟨mid, .nothing⟩ later := by
  induction groups generalizing d with
  | nil =>
    obtain rfl := Except.ok.inj filled
    rfl
  | cons g groups ih =>
    obtain ⟨first, others⟩ := List.forall_mem_cons.mp legible
    rw [List.foldlM_cons] at filled
    obtain ⟨next, added, filled⟩ := bind_eq_ok_iff.mp filled
    rw [List.flatMap_cons, List.append_assoc, draftOf_added first added, ih others filled]

theorem word_of_refused {s : Scan} {usage : Usage} (refused : s.settle = .error usage)
    (free : s.hasQuery = false) (v : ByteText) : s.word v = .error usage := by
  rw [word, free, refused]
  rfl

/-- What waits and will be refused is refused when the next group is read, unless that is found out to be
a second query before. -/
theorem draftOf_refused {s : Scan} (ready : s.Ready) {usage : Usage}
    (refused : s.settle = .error usage) {l : ByteLine} (legible : ∀ g ∈ l.groups, g.Legible)
    (one : s.hasQuery = true → ∀ g ∈ l.said, g.place ≠ .query) :
    s.draftOf l.tokens = .error usage := by
  have free (text : ByteText) (said : .query text ∈ l.said) : s.hasQuery = false :=
    Bool.eq_false_iff.mpr fun given => one given _ said rfl
  obtain ⟨groups, ending⟩ := l
  cases groups with
  | nil =>
    cases ending with
    | none => exact refused
    | some query? =>
      cases query? with
      | none => exact refused
      | some text =>
        have word := word_of_refused refused (free text List.mem_cons_self) text
        simp only [ByteLine.tokens, List.flatMap_nil, List.nil_append, draftOf, readAll_terminator,
          List.foldlM_cons, word]
        rfl
  | cons g groups =>
    have stops : s.take g = .error usage := by
      cases g with
      | option p spelling v =>
        cases spelling <;> simp only [take, attached, refused] <;> rfl
      | execute =>
        simp only [take, execute, refused]
        rfl
      | query text => exact word_of_refused refused (free text List.mem_cons_self) text
    rw [ByteLine.tokens_cons, draftOf, readAll_group ready (legible g List.mem_cons_self), stops]
    rfl

/-- A group in front goes into the draft or is refused by it, where it is no second query. -/
theorem draftOf_add {g : ByteGroup} (legible : g.Legible) {d : Draft} {l : ByteLine}
    (others : ∀ g ∈ l.groups, g.Legible) (one : d.OneQuery (g :: l.said)) :
    draftOf ⟨d, .nothing⟩ (g.tokens ++ l.tokens) =
      d.add g >>= fun mid => draftOf ⟨mid, .nothing⟩ l.tokens := by
  cases added : d.add g with
  | ok mid => exact draftOf_added legible added l.tokens
  | error usage =>
    have atOnce (stops : take ⟨d, .nothing⟩ g = .error usage) :
        draftOf ⟨d, .nothing⟩ (g.tokens ++ l.tokens) = .error usage := by
      rw [draftOf, readAll_group (ready_nothing d) legible, stops]
      rfl
    have afterwards {s : Scan} (waits : take ⟨d, .nothing⟩ g = .ok s) (ready : s.Ready)
        (refused : s.settle = .error usage)
        (given : s.hasQuery = true → g.place = .query ∨ d.Taken .query) :
        draftOf ⟨d, .nothing⟩ (g.tokens ++ l.tokens) = .error usage := by
      rw [draftOf, readAll_group (ready_nothing d) legible, waits]
      exact draftOf_refused ready refused others fun has => one.others (given has)
    -- What goes into the draft at once is refused at once.
    have direct {x : Except Usage Draft} (refused : x = .error usage) :
        (x >>= fun d => pure ⟨d, .nothing⟩ : Except Usage Scan) = .error usage := by
      rw [refused]
      rfl
    cases g with
    | option p spelling v =>
      have put : d.put p v = .error usage := added
      have given (has : hasQuery ⟨d, .given p v⟩ = true) : d.Taken .query :=
        Option.isSome_iff_ne_none.mp has
      cases spelling with
      | longEquals | shortEquals | shortJoined => exact atOnce (direct put)
      | longApart | shortApart =>
        exact afterwards rfl (ready_given d p v) put fun has => .inr (given has)
    | execute => exact atOnce (direct added)
    | query text =>
      have empty : d.query = none := Classical.not_not.mp (one.head rfl)
      have waits : take ⟨d, .nothing⟩ (.query text) = .ok ⟨d, .query text⟩ := by
        simp only [take, word, hasQuery, empty]
        rfl
      exact afterwards waits (ready_query d text) added fun _ => .inl rfl

/-- A line with one query at most is read as what it says, and refused for the same reason. -/
theorem draftOf_line_eq {l : ByteLine} (legible : ∀ g ∈ l.groups, g.Legible) {d : Draft}
    (one : d.OneQuery l.said) : draftOf ⟨d, .nothing⟩ l.tokens = l.said.foldlM Draft.add d := by
  obtain ⟨groups, ending⟩ := l
  induction groups generalizing d with
  | nil =>
    cases ending with
    | none => rfl
    | some query? =>
      cases query? with
      | none => rfl
      | some text =>
        have empty : d.query = none := Classical.not_not.mp (one.head rfl)
        have waits : word ⟨d, .nothing⟩ text = .ok ⟨d, .query text⟩ := by
          simp only [word, hasQuery, empty]
          rfl
        simp only [ByteLine.tokens, List.flatMap_nil, List.nil_append, draftOf, readAll_terminator,
          List.foldlM_cons, waits]
        exact (bind_pure (d.putQuery text)).symm
  | cons g groups ih =>
    obtain ⟨first, others⟩ := List.forall_mem_cons.mp legible
    rw [ByteLine.tokens_cons, draftOf_add first others one, ByteLine.said, List.cons_append,
      List.foldlM_cons]
    cases added : d.add g with
    | error usage => rfl
    | ok mid => exact ih others (one.tail added)

theorem word_of_taken {d : Draft} (taken : d.Taken .query) (v : ByteText) :
    word ⟨d, .nothing⟩ v = .error .unknownArgument :=
  if_pos (Option.isSome_iff_ne_none.mpr taken)

/-- A second query is taken for an argument that nobody knows, at the end of a line as well. -/
theorem draftOf_secondQuery {l : ByteLine} (legible : ∀ g ∈ l.groups, g.Legible) {d mid : Draft}
    {front rest : List ByteGroup} {g : ByteGroup} (said : l.said = front ++ g :: rest)
    (second : g.place = .query) (filled : front.foldlM Draft.add d = .ok mid)
    (taken : mid.Taken .query) : draftOf ⟨d, .nothing⟩ l.tokens = .error .unknownArgument := by
  obtain ⟨groups, ending⟩ := l
  induction groups generalizing d front with
  | nil =>
    have only : (ending.bind id).toList.map ByteGroup.query = front ++ g :: rest := said
    cases ending with
    | none => simp at only
    | some query? =>
      cases query? with
      | none => simp at only
      | some text =>
        cases front with
        | cons f front => simp at only
        | nil =>
          obtain rfl := Except.ok.inj filled
          simp only [ByteLine.tokens, List.flatMap_nil, List.nil_append, draftOf, readAll_terminator,
            List.foldlM_cons, word_of_taken taken]
          rfl
  | cons h groups ih =>
    obtain ⟨first, others⟩ := List.forall_mem_cons.mp legible
    rw [ByteLine.tokens_cons]
    cases front with
    | nil =>
      obtain ⟨rfl, -⟩ := List.cons.inj said
      obtain rfl := Except.ok.inj filled
      cases h with
      | option p spelling v => cases second
      | execute => cases second
      | query text =>
        rw [draftOf, readAll_group (ready_nothing d) first, take, word_of_taken taken]
        rfl
    | cons f front =>
      obtain ⟨rfl, saidNext⟩ := List.cons.inj said
      rw [List.foldlM_cons] at filled
      obtain ⟨next, added, filled⟩ := bind_eq_ok_iff.mp filled
      rw [draftOf_added first added]
      exact ih filled others saidNext

theorem long_of_unknown {name : Text} (unknown : ¬ KnownName name) (s : Scan)
    (value : Option ByteText) : s.long name value = .error .unknownArgument := by
  have noOption : Parameter.ofLong? name = none := by
    rw [Option.eq_none_iff_forall_ne_some]
    exact fun p found => unknown (.inl ⟨p, Parameter.ofLong?_eq_some_iff.mp found⟩)
  have noExecute : name ≠ executeName := fun same => unknown (.inr (.inl same))
  have noHelp : name ≠ helpName := fun same => unknown (.inr (.inr same))
  simp only [long, noOption, noExecute, noHelp, if_false]

theorem short_of_unknown {letter : Char} (unknown : ¬ KnownLetter letter) (s : Scan)
    (rest : ByteText) : s.short letter rest = .error .unknownArgument := by
  have noOption : Parameter.ofShort? letter = none := by
    rw [Option.eq_none_iff_forall_ne_some]
    exact fun p found => unknown (.inl ⟨p, Parameter.ofShort?_eq_some_iff.mp found⟩)
  have noHelp : letter ≠ 'h' := fun same => unknown (.inr same)
  simp only [short, noOption, noHelp, if_false]

/-- An option that nobody knows is reported at once, before what waits is looked at. -/
theorem draftOf_unknown {token : ByteText} (unknown : UnknownOption token) {s : Scan}
    (ready : s.Ready) (later : List ByteText) :
    s.draftOf (token :: later) = .error .unknownArgument := by
  rw [draftOf]
  cases unknown with
  | name nonempty plain unknown =>
    rw [readAll_name nonempty plain, long_of_unknown unknown]
    rfl
  | nameEquals v plain unknown =>
    rw [readAll_nameEquals plain, long_of_unknown unknown]
    rfl
  | letter rest other unknown =>
    rw [readAll_cluster other rest ready, short_of_unknown unknown]
    rfl
  | unreadable unreadable =>
    rw [readAll_unreadable unreadable]
    rfl

/-- Asking for help ends the reading, whatever stands behind it. -/
theorem draftOf_help {token : ByteText} (help : token ∈ helpTokens) (d : Draft)
    (later : List ByteText) : draftOf ⟨d, .nothing⟩ (token :: later) = .error .help := by
  rw [helpTokens, List.mem_cons, List.mem_singleton] at help
  rw [draftOf]
  rcases help with rfl | rfl
  · have other : 'h' ≠ '-' := by decide
    refine congrArg (· >>= settle) (readAll_cluster other (.ofText []) (ready_nothing d) later)
  · have nonempty : helpName ≠ [] := by decide
    have plain : '=' ∉ helpName := by decide
    exact congrArg (· >>= settle) (readAll_name nonempty plain ⟨d, .nothing⟩ later)

end Scan

end QueryCaret
