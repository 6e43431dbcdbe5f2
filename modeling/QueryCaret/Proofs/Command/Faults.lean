import QueryCaret.Command.Report
import QueryCaret.Proofs.Command.Grammar
import QueryCaret.Proofs.Command.Refusing

/-!
# One fault on a command line

A fault on a command line is found out at sight, when an argument goes into the draft, or when the draft
is finished. On a line that is right otherwise there is nothing else to find: all that stands before the
fault goes into the draft, and what stands behind it can only be what the fault collides with. So it does
not matter where on the line the fault is, how its groups are ordered or how they are spelled.

* `refused_again`, `refused_beside`, `refused_secondQuery` — a group too many;
* `refused_at` — a token that is found out at sight, or that asks for help;
* `refused_without` — a group too few;
* `single_fault_classified` — every fault has its name and its exit code, wherever it stands.
-/

set_option autoImplicit false

namespace QueryCaret

/-- The options that no command line may leave out. -/
def Parameter.required : List Parameter := [.position, .message]

namespace Draft

theorem finish_of_both {d : Draft} (file : d.Taken (.option .file)) (query : d.Taken .query) :
    d.finish = .error .conflict :=
  if_pos ⟨Option.isSome_iff_ne_none.mpr file, Option.isSome_iff_ne_none.mpr query⟩

theorem finish_of_missing {d : Draft} (apart : ¬ (d.Taken (.option .file) ∧ d.Taken .query))
    {p : Parameter} (required : p ∈ Parameter.required) (missing : ¬ d.Taken (.option p)) :
    d.finish = .error .missingRequired := by
  have one : ¬ (d.file.isSome ∧ d.query.isSome) := fun ⟨file, query⟩ =>
    apart ⟨Option.isSome_iff_ne_none.mp file, Option.isSome_iff_ne_none.mp query⟩
  rw [finish, if_neg one]
  rw [Parameter.required, List.mem_cons, List.mem_singleton] at required
  rcases required with rfl | rfl
  · have absent : d.position = none := Classical.not_not.mp missing
    rw [absent]
  · have absent : d.message = none := Classical.not_not.mp missing
    rw [absent]
    cases d.position <;> rfl

end Draft

namespace ByteLine

/-- The places that a line has something for. -/
def places (l : ByteLine) : List Place := l.said.map ByteGroup.place

/-- The line without its groups for some options. -/
def without (l : ByteLine) (gone : List Parameter) : ByteLine :=
  { l with groups := l.groups.filter fun g => ∀ p ∈ gone, g.place ≠ .option p }

/-- What a line owes for nothing to be wrong with what stands on it: it may say too little, but nothing
twice and nothing that cannot be read. -/
structure Consistent (l : ByteLine) : Prop where
  legible : ∀ g ∈ l.groups, g.Legible
  readable : ∀ g ∈ l.said, g.Readable
  once : l.places.Nodup
  apart : ¬ (.option .file ∈ l.places ∧ .query ∈ l.places)

/-- The tokens of a line with one fault at a boundary between its groups, and what the fault is. -/
inductive Spoiled : ByteLine → List ByteText → Usage → Prop
  /-- An option or the flag stands there already. -/
  | again (before behind : List ByteGroup) {ending : Option (Option ByteText)} {g : ByteGroup}
      (legible : g.Legible) (readable : g.Readable) (noQuery : g.place ≠ .query)
      (given : g.place ∈ places ⟨before ++ behind, ending⟩) :
      Spoiled ⟨before ++ behind, ending⟩ (tokens ⟨before ++ g :: behind, ending⟩) .conflict
  | queryBesideFile (before behind : List ByteGroup) {ending : Option (Option ByteText)} {text : Text}
      (apart : StandsApart text) (given : .option .file ∈ places ⟨before ++ behind, ending⟩) :
      Spoiled ⟨before ++ behind, ending⟩
        (tokens ⟨before ++ .query (.ofText text) :: behind, ending⟩) .conflict
  | fileBesideQuery (before behind : List ByteGroup) {ending : Option (Option ByteText)}
      {path : ByteText} {spelling : Spelling} (nonempty : path ≠ .ofText [])
      (fits : spelling.FitsBytes .file path) (given : .query ∈ places ⟨before ++ behind, ending⟩) :
      Spoiled ⟨before ++ behind, ending⟩
        (tokens ⟨before ++ .option .file spelling path :: behind, ending⟩) .conflict
  | secondQuery (before behind : List ByteGroup) {ending : Option (Option ByteText)} {text : Text}
      (apart : StandsApart text) (given : .query ∈ places ⟨before ++ behind, ending⟩) :
      Spoiled ⟨before ++ behind, ending⟩
        (tokens ⟨before ++ .query (.ofText text) :: behind, ending⟩) .unknownArgument
  | unknownOption (before behind : List ByteGroup) {ending : Option (Option ByteText)}
      {token : ByteText} (unknown : UnknownOption token) :
      Spoiled ⟨before ++ behind, ending⟩
        (before.flatMap ByteGroup.tokens ++ token :: tokens ⟨behind, ending⟩) .unknownArgument
  /-- Some of the required options are left out. -/
  | missing {l : ByteLine} {gone : List Parameter} (some : gone ≠ [])
      (required : gone ⊆ Parameter.required) : Spoiled l (l.without gone).tokens .missingRequired
  /-- Help is asked for. Required options may be left out then. -/
  | help {l : ByteLine} {gone : List Parameter} (required : gone ⊆ Parameter.required)
      {before behind : List ByteGroup} (split : (l.without gone).groups = before ++ behind)
      {token : ByteText} (help : token ∈ helpTokens) :
      Spoiled l (before.flatMap ByteGroup.tokens ++ token :: tokens ⟨behind, l.ending⟩) .help

theorem said_insert (before behind : List ByteGroup) (g : ByteGroup)
    (ending : Option (Option ByteText)) :
    (said ⟨before ++ g :: behind, ending⟩).Perm (g :: said ⟨before ++ behind, ending⟩) :=
  List.perm_middle.append_right _

theorem places_insert (before behind : List ByteGroup) (g : ByteGroup)
    (ending : Option (Option ByteText)) :
    (places ⟨before ++ g :: behind, ending⟩).Perm (g.place :: places ⟨before ++ behind, ending⟩) :=
  (said_insert before behind g ending).map ByteGroup.place

theorem option_notMem_places_without (l : ByteLine) {gone : List Parameter} {p : Parameter}
    (member : p ∈ gone) : .option p ∉ (l.without gone).places := by
  simp only [places, said, without, List.map_append, List.mem_append, List.mem_map, not_or,
    not_exists, not_and]
  constructor
  · intro g kept
    exact of_decide_eq_true (List.mem_filter.mp kept).2 p member
  · rintro g ⟨text, -, rfl⟩
    exact Place.noConfusion

namespace Consistent

variable {l : ByteLine}

/-- What is left of a consistent line is consistent. -/
theorem without (consistent : l.Consistent) (gone : List Parameter) :
    (l.without gone).Consistent := by
  have fewer : (l.without gone).groups.Sublist l.groups := List.filter_sublist
  have said : (l.without gone).said.Sublist l.said := fewer.append_right _
  have places : (l.without gone).places.Sublist l.places := said.map ByteGroup.place
  exact {
    legible := fun g member => consistent.legible g (fewer.subset member)
    readable := fun g member => consistent.readable g (said.subset member)
    once := consistent.once.sublist places
    apart := fun both => consistent.apart ⟨places.subset both.1, places.subset both.2⟩ }

/-- The groups up to a boundary go into the draft. -/
theorem front {before behind : List ByteGroup} (consistent : l.Consistent)
    (split : l.groups = before ++ behind) : ∃ d, before.foldlM Draft.add {} = .ok d := by
  have part : before.Sublist l.said := by
    rw [said, split]
    exact (List.sublist_append_left before behind).trans (List.sublist_append_left _ _)
  obtain ⟨d, filled, -⟩ := Draft.exists_filled
    (fun g member => consistent.readable g (part.subset member))
    (consistent.once.sublist (part.map ByteGroup.place))
  exact ⟨d, filled⟩

end Consistent

end ByteLine

namespace Request

open ByteLine

theorem ofArguments_of_filled {l : ByteLine} (legible : ∀ g ∈ l.groups, g.Legible) {d : Draft}
    (filled : l.said.foldlM Draft.add {} = .ok d) : ofArguments l.tokens = d.finish := by
  have read : Scan.draftOf {} l.tokens = .ok d := (Scan.draftOf_line legible {} d).mpr filled
  rw [ofArguments_eq_draftOf, read]
  rfl

theorem ofArguments_of_refused {tokens : List ByteText} {usage : Usage}
    (refused : Scan.draftOf {} tokens = .error usage) : ofArguments tokens = .error usage := by
  rw [ofArguments_eq_draftOf, refused]
  rfl

/-- Nothing is wrong with what stands on a line that is accepted. -/
theorem consistent_of_accepted {l : ByteLine} (legible : ∀ g ∈ l.groups, g.Legible) {r : Request}
    (accepted : ofArguments l.tokens = .ok r) : l.Consistent := by
  obtain ⟨-, d, filled, finished⟩ := (ofArguments_tokens_eq_ok_iff legible).mp accepted
  have filled := Draft.foldlM_add_eq_ok_iff.mpr filled
  obtain ⟨readable, once, -⟩ := Draft.exists_foldlM_add_iff.mp ⟨d, filled⟩
  refine ⟨legible, readable, once, ?_⟩
  rintro ⟨file, query⟩
  have takenFile := (Draft.taken_of_foldlM filled (.option .file)).mpr (.inl file)
  have takenQuery := (Draft.taken_of_foldlM filled .query).mpr (.inl query)
  exact finished.apart.elim takenFile takenQuery

section Inserted

variable {before behind : List ByteGroup} {ending : Option (Option ByteText)} {g : ByteGroup}

theorem legible_insert (consistent : Consistent ⟨before ++ behind, ending⟩) (legible : g.Legible) :
    ∀ h ∈ before ++ g :: behind, h.Legible := by
  intro h member
  rcases List.mem_cons.mp (List.perm_middle.mem_iff.mp member) with rfl | old
  · exact legible
  · exact consistent.legible h old

theorem readable_insert (consistent : Consistent ⟨before ++ behind, ending⟩) (readable : g.Readable) :
    ∀ h ∈ said ⟨before ++ g :: behind, ending⟩, h.Readable := by
  intro h member
  rcases List.mem_cons.mp ((said_insert before behind g ending).mem_iff.mp member) with rfl | old
  · exact readable
  · exact consistent.readable h old

/-- What holds between the groups of a line, and between each of them and one more, holds between all. -/
theorem pairwise_insert {R : ByteGroup → ByteGroup → Prop} (turned : ∀ {f h}, R f h → R h f)
    (others : (said ⟨before ++ behind, ending⟩).Pairwise R)
    (own : ∀ h ∈ said ⟨before ++ behind, ending⟩, R g h) :
    (said ⟨before ++ g :: behind, ending⟩).Pairwise R :=
  ((said_insert before behind g ending).pairwise_iff turned).mpr (List.pairwise_cons.mpr ⟨own, others⟩)

/-- A group for a place that is taken does not fill in a draft with the others. -/
theorem clashes_insert (consistent : Consistent ⟨before ++ behind, ending⟩) (readable : g.Readable)
    (given : g.place ∈ places ⟨before ++ behind, ending⟩) :
    ∃ front h rest mid, said ⟨before ++ g :: behind, ending⟩ = front ++ h :: rest ∧
      front.foldlM Draft.add {} = .ok mid ∧ mid.Taken h.place := by
  rcases Draft.fills_or_clashes (readable_insert consistent readable) {} with filled | clash
  · obtain ⟨-, once, -⟩ := Draft.exists_foldlM_add_iff.mp filled
    have once : (g.place :: places ⟨before ++ behind, ending⟩).Nodup :=
      (places_insert before behind g ending).nodup_iff.mp once
    exact absurd given (List.nodup_cons.mp once).1
  · exact clash

/-- What stands on the line already cannot be given again. -/
theorem refused_again (consistent : Consistent ⟨before ++ behind, ending⟩) (legible : g.Legible)
    (readable : g.Readable) (noQuery : g.place ≠ .query)
    (given : g.place ∈ places ⟨before ++ behind, ending⟩) :
    ofArguments (tokens ⟨before ++ g :: behind, ending⟩) = .error .conflict := by
  have different := List.pairwise_map.mp consistent.once
  have apart : (said ⟨before ++ g :: behind, ending⟩).Pairwise
      fun f h => f.place = .query → h.place ≠ .query :=
    pairwise_insert (fun apart second first => apart first second)
      (different.imp fun other first second => other (first.trans second.symm))
      (fun h _ query => absurd query noQuery)
  have one : Draft.OneQuery {} (said ⟨before ++ g :: behind, ending⟩) :=
    ⟨apart, fun taken => absurd taken (Draft.not_taken_empty .query)⟩
  obtain ⟨front, h, rest, mid, same, filled, taken⟩ := clashes_insert consistent readable given
  refine ofArguments_of_refused ?_
  calc Scan.draftOf {} (tokens ⟨before ++ g :: behind, ending⟩)
      = (said ⟨before ++ g :: behind, ending⟩).foldlM Draft.add {} :=
        Scan.draftOf_line_eq (legible_insert consistent legible) one
    _ = (front ++ h :: rest).foldlM Draft.add {} := by rw [same]
    _ = .error .conflict := Draft.foldlM_of_clash filled taken

/-- File and query exclude each other, whichever is there first. -/
theorem refused_beside (consistent : Consistent ⟨before ++ behind, ending⟩) (legible : g.Legible)
    (readable : g.Readable)
    (beside : g.place = .query ∧ .option .file ∈ places ⟨before ++ behind, ending⟩ ∨
      g.place = .option .file ∧ .query ∈ places ⟨before ++ behind, ending⟩) :
    ofArguments (tokens ⟨before ++ g :: behind, ending⟩) = .error .conflict := by
  have fresh : g.place ∉ places ⟨before ++ behind, ending⟩ := by
    intro again
    rcases beside with ⟨query, file⟩ | ⟨file, query⟩
    · exact consistent.apart ⟨file, query ▸ again⟩
    · exact consistent.apart ⟨file ▸ again, query⟩
  have order := places_insert before behind g ending
  obtain ⟨d, filled, taken⟩ := Draft.exists_filled (readable_insert consistent readable)
    (order.nodup_iff.mpr (List.nodup_cons.mpr ⟨fresh, consistent.once⟩))
  have has (q : Place) (member : q = g.place ∨ q ∈ places ⟨before ++ behind, ending⟩) : d.Taken q :=
    (taken q).mpr (order.mem_iff.mpr (List.mem_cons.mpr member))
  rw [ofArguments_of_filled (legible_insert consistent legible) filled]
  rcases beside with ⟨query, file⟩ | ⟨file, query⟩
  · exact Draft.finish_of_both (has _ (.inr file)) (has _ (.inl query.symm))
  · exact Draft.finish_of_both (has _ (.inl file.symm)) (has _ (.inr query))

/-- A second query is an argument too many, behind the terminator as well. -/
theorem refused_secondQuery (consistent : Consistent ⟨before ++ behind, ending⟩)
    (legible : g.Legible) (readable : g.Readable) (second : g.place = .query)
    (given : .query ∈ places ⟨before ++ behind, ending⟩) :
    ofArguments (tokens ⟨before ++ g :: behind, ending⟩) = .error .unknownArgument := by
  obtain ⟨front, h, rest, mid, same, filled, taken⟩ :=
    clashes_insert consistent readable (second ▸ given)
  -- Only the query stands there twice.
  have different := List.pairwise_map.mp consistent.once
  have pairs : (said ⟨before ++ g :: behind, ending⟩).Pairwise
      fun f h => f.place = h.place → h.place = .query :=
    pairwise_insert (fun query again => again.symm.trans (query again.symm))
      (different.imp fun other again => absurd again other)
      (fun h _ again => again.symm.trans second)
  have twice : h.place ∈ front.map ByteGroup.place :=
    ((Draft.taken_of_foldlM filled h.place).mp taken).resolve_right (Draft.not_taken_empty h.place)
  obtain ⟨f, member, again⟩ := List.mem_map.mp twice
  rw [same] at pairs
  have query : h.place = .query :=
    (List.pairwise_append.mp pairs).2.2 f member h List.mem_cons_self again
  exact ofArguments_of_refused (Scan.draftOf_secondQuery (legible_insert consistent legible) same query
    filled (query ▸ taken))

end Inserted

/-- What is refused at sight, whatever stands behind it, is refused at every boundary. -/
theorem refused_at {l : ByteLine} (consistent : l.Consistent) {before behind : List ByteGroup}
    (split : l.groups = before ++ behind) {token : ByteText} {usage : Usage}
    (atSight : ∀ d later, Scan.draftOf ⟨d, .nothing⟩ (token :: later) = .error usage)
    (later : List ByteText) :
    ofArguments (before.flatMap ByteGroup.tokens ++ token :: later) = .error usage := by
  obtain ⟨d, filled⟩ := consistent.front split
  have legible : ∀ g ∈ before, g.Legible := fun g member =>
    consistent.legible g (split ▸ List.mem_append_left behind member)
  refine ofArguments_of_refused ?_
  exact (Scan.draftOf_groups legible filled (token :: later)).trans (atSight d later)

/-- A line that leaves out what is required is found out in the end. -/
theorem refused_without {l : ByteLine} (consistent : l.Consistent) {gone : List Parameter}
    (some : gone ≠ []) (required : gone ⊆ Parameter.required) :
    ofArguments (l.without gone).tokens = .error .missingRequired := by
  have left := consistent.without gone
  obtain ⟨d, filled, taken⟩ := Draft.exists_filled left.readable left.once
  obtain ⟨p, member⟩ := List.exists_mem_of_ne_nil gone some
  rw [ofArguments_of_filled left.legible filled]
  refine Draft.finish_of_missing ?_ (required member) ?_
  · exact fun both => left.apart ⟨(taken _).mp both.1, (taken _).mp both.2⟩
  · exact fun has => option_notMem_places_without l member ((taken _).mp has)

theorem refused_of_spoiled {l : ByteLine} (consistent : l.Consistent) {tokens : List ByteText}
    {usage : Usage} (fault : l.Spoiled tokens usage) : ofArguments tokens = .error usage := by
  cases fault with
  | again before behind legible readable noQuery given =>
    exact refused_again consistent legible readable noQuery given
  | queryBesideFile before behind apart given =>
    have legible := ByteText.standsApart_ofText_iff.mpr apart
    exact refused_beside consistent legible ⟨_, rfl⟩ (.inl ⟨rfl, given⟩)
  | fileBesideQuery before behind nonempty fits given =>
    exact refused_beside consistent fits ⟨_, if_neg nonempty⟩ (.inr ⟨rfl, given⟩)
  | secondQuery before behind apart given =>
    have legible := ByteText.standsApart_ofText_iff.mpr apart
    exact refused_secondQuery consistent legible ⟨_, rfl⟩ rfl given
  | unknownOption before behind unknown =>
    exact refused_at consistent rfl
      (fun d later => Scan.draftOf_unknown unknown (Scan.ready_nothing d) later) _
  | missing some required => exact refused_without consistent some required
  | help required split help =>
    exact refused_at (consistent.without _) split (Scan.draftOf_help help) _

/-- A single fault on a command line has its own name, wherever it stands. Arguments that make a request
can be divided into groups, and however they are divided, one fault at any boundary between the groups is
refused for what it is. Asking for help exits with `0`, everything else with `2`. -/
theorem single_fault_classified {arguments : List ByteText} {r : Request}
    (accepted : ofCommandLine (.ofText (Command.name .render) :: arguments) = .ok r) :
    (∃ l : ByteLine, l.tokens = arguments ∧ ∀ g ∈ l.groups, g.Legible) ∧
    ∀ l : ByteLine, l.tokens = arguments → (∀ g ∈ l.groups, g.Legible) →
      ∀ tokens usage, l.Spoiled tokens usage →
        ofCommandLine (.ofText (Command.name .render) :: tokens) = .error usage ∧
        (Outcome.ofUsage usage).exitCode = if usage = .help then 0 else 2 := by
  have accepted : ofArguments arguments = .ok r := accepted
  obtain ⟨line, division, makes⟩ := exists_makes_of_ofArguments accepted
  refine ⟨⟨line, division, makes.legible⟩, ?_⟩
  intro l division legible tokens usage fault
  rw [← division] at accepted
  refine ⟨refused_of_spoiled (consistent_of_accepted legible accepted) fault, ?_⟩
  cases fault <;> rfl

/-- The position is negative, the query stands behind the terminator, and each fault is at another
boundary. -/
theorem single_fault_classified_before_terminator :
    let word (s : String) : ByteText := .ofText s.toList
    let l : ByteLine := ⟨[.option .position .longApart (word "-1"),
      .option .message .shortJoined (word "x"), .execute], some (some (word "q"))⟩
    let r : Request := { position := -1, message := ['x'], execute := true, argument? := some ['q'] }
    let refuses (arguments : List String) (usage : Usage) (code : Nat) : Prop :=
      ofCommandLine (word "render" :: arguments.map word) = .error usage ∧
        (Outcome.ofUsage usage).exitCode = code
    ofCommandLine (word "render" :: l.tokens) = .ok r ∧
      refuses ["--position", "-1", "-mx", "-p=3", "--execute", "--", "q"] .conflict 2 ∧
      refuses ["-f", "q.sql", "--position", "-1", "-mx", "--execute", "--", "q"] .conflict 2 ∧
      refuses ["--position", "-1", "-mx", "--execute", "r", "--", "q"] .unknownArgument 2 ∧
      refuses ["--position", "-1", "-5", "-mx", "--execute", "--", "q"] .unknownArgument 2 ∧
      refuses ["-mx", "--execute", "--", "q"] .missingRequired 2 ∧
      refuses ["--execute", "-h", "--", "q"] .help 0 := by
  intro word l r refuses
  let position : ByteGroup := .option .position .longApart (word "-1")
  let message : ByteGroup := .option .message .shortJoined (word "x")
  let three : ByteGroup := .option .position .shortEquals (word "3")
  have readThree : three.Readable := ⟨(3 : Int), rfl⟩
  have accepted : ofCommandLine (word "render" :: l.tokens) = .ok r := rfl
  have legible : ∀ g ∈ l.groups, g.Legible := by
    have negative : (Parameter.position).TakesApartBytes (word "-1") :=
      .inr ⟨_, rfl, .inr ⟨rfl, ['1'], rfl, rfl⟩⟩
    have joined : word "x" ≠ .ofText [] ∧ (word "x").text.head? ≠ some '=' := by decide
    simpa [l, ByteGroup.Legible, Spelling.FitsBytes, Parameter.short?] using ⟨negative, joined⟩
  have hasPosition : Place.option .position ∈ l.places := List.mem_cons_self
  have hasQuery : Place.query ∈ l.places := by decide
  obtain ⟨-, faults⟩ := single_fault_classified accepted
  have faults := faults l rfl legible
  refine ⟨accepted, ?_, ?_, ?_, ?_, ?_, ?_⟩
  · have again := ByteLine.Spoiled.again [position, message] [.execute] (g := three) rfl readThree
      Place.noConfusion hasPosition
    exact faults _ _ again
  · have apart : (Parameter.file).TakesApartBytes (word "q.sql") := .inl (.inr (by decide))
    have fits : Spelling.FitsBytes .file (word "q.sql") .shortApart := ⟨rfl, apart⟩
    exact faults _ _ (.fileBesideQuery [] l.groups (by decide) fits hasQuery)
  · have apart : StandsApart ['r'] := .inr (by decide)
    exact faults _ _ (.secondQuery l.groups [] apart hasQuery)
  · have noLetter : ¬ KnownLetter '5' := by
      rintro (⟨p, short⟩ | help)
      · cases p <;> exact absurd short (by decide)
      · exact absurd help (by decide)
    have unknown : UnknownOption (word "-5") := .letter (.ofText []) (by decide) noLetter
    exact faults _ _ (.unknownOption [position] [message, .execute] unknown)
  · have required : [Parameter.position] ⊆ Parameter.required := by decide
    exact faults _ _ (.missing (List.cons_ne_nil _ _) required)
  · have required : [Parameter.position, .message] ⊆ Parameter.required := by decide
    have split : (l.without [.position, .message]).groups = [.execute] ++ [] := rfl
    exact faults _ _ (.help required split List.mem_cons_self)

end Request

end QueryCaret
