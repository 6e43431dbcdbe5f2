import QueryCaret.Proofs.Command.Scanning

/-!
# The grammar of `render`

The arguments of `render` are read from left to right, and what a token is depends on the one before it.
Nevertheless the lists of arguments that make a request can be said without reading any: they are the
tokens of the well-formed lines, and the request is the one that the line makes.

* `exists_makes_iff` — a line makes a request exactly if it is well-formed;
* `makes_bytes_iff` — its bytes make the same request;
* `ofArguments_tokens_eq_ok_iff` — what bytes make is what a line makes, however they are divided;
* `exists_makes_of_ofArguments` — and bytes that make a request can be divided into a line;
* `ofArguments_accepts_lines` — the tokens of well-formed lines are accepted, and no others.
-/

set_option autoImplicit false

namespace QueryCaret

namespace Line

/-- What makes a line well-formed: how often each option, the flag and the query are given, and what
their values look like. -/
structure WellFormed (l : Line) : Prop where
  legible : ∀ g ∈ l.groups, g.Legible
  position : ∃ value n, l.values .position = [value] ∧ Text.IsInteger value n ∧
    -signedLimit ≤ n ∧ n < signedLimit
  message : ∃ value, l.values .message = [value]
  execute : l.groups.count .execute ≤ 1
  padding : (l.values .padding).length ≤ 1 ∧
    ∀ value ∈ l.values .padding, ∃ n, Text.IsNatural value n ∧ n < unsignedLimit
  anchor : (l.values .anchor).length ≤ 1 ∧
    ∀ value ∈ l.values .anchor, value = "trimmed".toList ∨ value = "original".toList
  file : (l.values .file).length ≤ 1 ∧ ∀ value ∈ l.values .file, value ≠ []
  query : l.queries.length ≤ 1
  apart : l.values .file = [] ∨ l.queries = []

theorem exists_given_iff {α : Type} {values : List Text} {read? : Text → Option α} {unsaid : α} :
    (∃ a, Given values read? unsaid a) ↔
      values.length ≤ 1 ∧ ∀ value ∈ values, ∃ a, read? value = some a := by
  match values with
  | [] => simp [Given]
  | [value] => simp [Given]
  | value :: other :: values => simp [Given]

theorem exists_opens_iff {l : Line} :
    (∃ file?, l.Opens file?) ↔
      (l.values .file).length ≤ 1 ∧ ∀ value ∈ l.values .file, value ≠ [] := by
  unfold Opens
  match l.values .file with
  | [] => simp
  | [value] =>
    simp only [List.length_singleton, Nat.le_refl, true_and, List.mem_singleton, forall_eq]
    constructor
    · rintro ⟨file?, ⟨⟨⟩, -⟩ | ⟨name, nonempty, ⟨⟩, -⟩⟩
      exact nonempty
    · intro nonempty
      exact ⟨_, .inr ⟨value, nonempty, rfl, rfl⟩⟩
  | value :: other :: values => simp

theorem Opens.absent_iff {l : Line} {file? : Option ByteText} (opens : l.Opens file?) :
    file? = none ↔ l.values .file = [] := by
  rcases opens with ⟨absent, rfl⟩ | ⟨name, -, one, rfl⟩
  · simp [absent]
  · simp [one]

theorem exists_toList_iff {queries : List Text} :
    (∃ query? : Option Text, queries = query?.toList) ↔ queries.length ≤ 1 := by
  match queries with
  | [] => exact ⟨fun _ => Nat.zero_le 1, fun _ => ⟨none, rfl⟩⟩
  | [query] => exact ⟨fun _ => Nat.le_refl 1, fun _ => ⟨some query, rfl⟩⟩
  | query :: other :: queries =>
    constructor
    · rintro ⟨_ | _, ⟨⟩⟩
    · exact fun many => absurd many (by simp)

theorem exists_anchor_iff {value : Text} :
    (∃ a, Anchor.ofWord? value = some a) ↔ value = "trimmed".toList ∨ value = "original".toList := by
  simp only [Anchor.ofWord?_eq_some_iff]
  constructor
  · rintro ⟨a | a, rfl⟩
    · exact .inl rfl
    · exact .inr rfl
  · rintro (rfl | rfl)
    · exact ⟨.trimmed, rfl⟩
    · exact ⟨.untrimmed, rfl⟩

/-- A line makes a request exactly if it is well-formed. -/
theorem exists_makes_iff {l : Line} : (∃ r, l.Makes r) ↔ l.WellFormed := by
  constructor
  · rintro ⟨r, makes⟩
    obtain ⟨value, one, read⟩ := makes.position
    have paddings := exists_given_iff.mp ⟨_, makes.padding⟩
    have anchors := exists_given_iff.mp ⟨_, makes.anchor⟩
    simp only [Text.unsigned?_eq_some_iff] at paddings
    simp only [exists_anchor_iff] at anchors
    refine {
      legible := makes.legible
      position := ⟨value, r.position, one, Text.signed?_eq_some_iff.mp read⟩
      message := ⟨r.message, makes.message⟩
      execute := ?_
      padding := paddings
      anchor := anchors
      file := exists_opens_iff.mp ⟨_, makes.file⟩
      query := exists_toList_iff.mp ⟨_, makes.query⟩
      apart := ?_ }
    · rw [makes.execute]
      split <;> decide
    · rw [← makes.file.absent_iff, makes.query, Option.toList_eq_nil_iff]
      exact makes.apart
  · intro formed
    obtain ⟨value, n, onePosition, isInteger⟩ := formed.position
    obtain ⟨message, oneMessage⟩ := formed.message
    have paddings := formed.padding
    have anchors := formed.anchor
    simp only [← Text.unsigned?_eq_some_iff] at paddings
    simp only [← exists_anchor_iff] at anchors
    obtain ⟨padding, padded⟩ := exists_given_iff.mpr paddings
    obtain ⟨anchor, anchored⟩ := exists_given_iff.mpr anchors
    obtain ⟨file?, opens⟩ := exists_opens_iff.mpr formed.file
    obtain ⟨argument?, queries⟩ := exists_toList_iff.mpr formed.query
    refine ⟨{
      position := n, message, padding, anchor, file?, argument?
      execute := decide (l.groups.count .execute = 1) }, {
      legible := formed.legible
      position := ⟨value, onePosition, Text.signed?_eq_some_iff.mpr isInteger⟩
      message := oneMessage
      execute := ?_
      padding := padded
      anchor := anchored
      file := opens
      query := queries
      apart := ?_ }⟩
    · have once := formed.execute
      simp only [decide_eq_true_eq]
      split <;> omega
    · have apart := formed.apart
      rwa [← opens.absent_iff, queries, Option.toList_eq_nil_iff] at apart

theorem said_bytes (l : Line) :
    l.bytes.said = (l.groups ++ (l.ending.bind id).toList.map Group.query).map Group.bytes := by
  obtain ⟨groups, ending⟩ := l
  rw [ByteLine.said, bytes, List.map_append]
  cases ending with
  | none => rfl
  | some query? => cases query? <;> rfl

theorem said_values (l : Line) (p : Parameter) :
    l.bytes.said.filterMap (ByteGroup.value? p) = (l.values p).map .ofText := by
  have unsaid (query? : Option Text) :
      (query?.toList.map Group.query).filterMap (Group.value? p) = [] := by
    cases query? <;> rfl
  have same : ByteGroup.value? p ∘ Group.bytes = fun g => (g.value? p).map .ofText :=
    funext (Group.value?_bytes p)
  rw [said_bytes, List.filterMap_map, same, ← List.map_filterMap, List.filterMap_append, unsaid,
    List.append_nil, values]

theorem said_queries (l : Line) :
    l.bytes.said.filterMap ByteGroup.query? = l.queries.map .ofText := by
  have given (query? : Option Text) :
      (query?.toList.map Group.query).filterMap Group.query? = query?.toList := by
    cases query? <;> rfl
  have same : ByteGroup.query? ∘ Group.bytes = fun g => g.query?.map .ofText :=
    funext Group.query?_bytes
  rw [said_bytes, List.filterMap_map, same, ← List.map_filterMap, List.filterMap_append, given,
    queries]

theorem said_count (l : Line) : l.bytes.said.count .execute = l.groups.count .execute := by
  have none (query? : Option Text) : (query?.toList.map Group.query).count .execute = 0 := by
    cases query? <;> rfl
  have same (groups : List Group) :
      (groups.map Group.bytes).count .execute = groups.count .execute := by
    induction groups with
    | nil => rfl
    | cons g groups ih => cases g <;> simp [Group.bytes, ih]
  rw [said_bytes, same, List.count_append, none, Nat.add_zero]

/-- An empty place stays empty or takes the only text. -/
theorem fill_texts_eq_ok_iff {α : Type} {read : ByteText → Except Usage α} {values : List Text}
    {after : Option α} :
    Draft.fill read none (values.map .ofText) = .ok after ↔
      values = [] ∧ after = none ∨
        ∃ value a, values = [value] ∧ read (.ofText value) = .ok a ∧ after = some a := by
  rw [Draft.fill_eq_ok_iff, List.map_eq_nil_iff]
  refine or_congr_right ⟨?_, ?_⟩
  · rintro ⟨v, a, one, taken, filled⟩
    obtain ⟨value, rfl, rfl⟩ := List.map_eq_singleton_iff.mp one
    exact ⟨value, a, rfl, taken, filled⟩
  · rintro ⟨value, a, rfl, taken, filled⟩
    exact ⟨.ofText value, a, rfl, taken, filled⟩

theorem fill_some_iff {α : Type} {read : ByteText → Except Usage α} {values : List Text} {a : α} :
    Draft.fill read none (values.map .ofText) = .ok (some a) ↔
      ∃ value, values = [value] ∧ read (.ofText value) = .ok a := by
  rw [fill_texts_eq_ok_iff]
  constructor
  · rintro (⟨-, ⟨⟩⟩ | ⟨value, _, one, taken, ⟨⟩⟩)
    exact ⟨value, one, taken⟩
  · rintro ⟨value, one, taken⟩
    exact .inr ⟨value, a, one, taken, rfl⟩

theorem given_iff {α : Type} {read : ByteText → Except Usage α} {read? : Text → Option α}
    (same : ∀ {value : Text} {a : α}, read (.ofText value) = .ok a ↔ read? value = some a)
    {values : List Text} {unsaid a : α} :
    Given values read? unsaid a ↔
      ∃ place, Draft.fill read none (values.map .ofText) = .ok place ∧ place.getD unsaid = a := by
  simp only [fill_texts_eq_ok_iff, same]
  constructor
  · rintro (⟨absent, rfl⟩ | ⟨value, one, taken⟩)
    · exact ⟨none, .inl ⟨absent, rfl⟩, rfl⟩
    · exact ⟨some a, .inr ⟨value, a, one, taken, rfl⟩, rfl⟩
  · rintro ⟨_, ⟨absent, rfl⟩ | ⟨value, b, one, taken, rfl⟩, rfl⟩
    · exact .inl ⟨absent, rfl⟩
    · exact .inr ⟨value, one, taken⟩

theorem opens_iff {l : Line} {file? : Option ByteText} :
    l.Opens file? ↔ Draft.fill Value.path none ((l.values .file).map .ofText) = .ok file? := by
  rw [fill_texts_eq_ok_iff]
  simp only [Value.path_ofText_eq_ok_iff]
  refine or_congr_right ⟨?_, ?_⟩
  · rintro ⟨name, nonempty, one, rfl⟩
    exact ⟨name, _, one, ⟨nonempty, rfl⟩, rfl⟩
  · rintro ⟨name, _, one, ⟨nonempty, rfl⟩, rfl⟩
    exact ⟨name, nonempty, one, rfl⟩

theorem eq_toList_iff {queries : List Text} {query? : Option Text} :
    queries = query?.toList ↔
      Draft.fill Value.text none (queries.map .ofText) = .ok query? := by
  cases query? with
  | none => simp [fill_texts_eq_ok_iff]
  | some query => simp [fill_some_iff, Value.text_ofText_eq_ok_iff]

/-- A line makes the same request as its bytes. -/
theorem makes_bytes_iff {l : Line} {r : Request} : l.bytes.Makes r ↔ l.Makes r := by
  symm
  constructor
  · intro makes
    obtain ⟨value, one, read⟩ := makes.position
    obtain ⟨padding, paddings, padded⟩ := (given_iff Value.number_ofText_eq_ok_iff).mp makes.padding
    obtain ⟨anchor, anchors, anchored⟩ := (given_iff Value.anchor_ofText_eq_ok_iff).mp makes.anchor
    refine ⟨legible_bytes_iff.mpr makes.legible, {
      position := some r.position, message := some r.message, execute := r.execute
      padding, anchor, file := r.file?, query := r.argument? }, ⟨fun p => ?_, ?_, ?_⟩,
      ⟨rfl, rfl, rfl, padded, anchored, rfl, rfl, makes.apart⟩⟩
    · rw [said_values]
      cases p with
      | position => exact fill_some_iff.mpr ⟨value, one, Value.number_ofText_eq_ok_iff.mpr read⟩
      | message => exact fill_some_iff.mpr ⟨_, makes.message, Value.text_ofText_eq_ok_iff.mpr rfl⟩
      | padding => exact paddings
      | anchor => exact anchors
      | file => exact opens_iff.mp makes.file
    · rw [said_count, makes.execute]
      cases r.execute <;> rfl
    · rw [said_queries]
      exact eq_toList_iff.mp makes.query
  · rintro ⟨legible, d, filled, finished⟩
    have options (p : Parameter) :
        Draft.fill p.read none ((l.values p).map .ofText) = .ok (d.get p) := by
      have empty : ({} : Draft).get p = none := by cases p <;> rfl
      rw [← said_values, ← empty]
      exact filled.options p
    have execute : l.groups.count .execute + 0 = d.execute.toNat := said_count l ▸ filled.execute
    have query := filled.query
    rw [said_queries, finished.query] at query
    rw [finished.execute, Nat.add_zero] at execute
    have position : Draft.fill _ none _ = .ok d.position := options .position
    have message : Draft.fill _ none _ = .ok d.message := options .message
    rw [finished.position] at position
    rw [finished.message] at message
    obtain ⟨value, one, read⟩ := fill_some_iff.mp position
    obtain ⟨_, oneMessage, taken⟩ := fill_some_iff.mp message
    obtain rfl := Value.text_ofText_eq_ok_iff.mp taken
    exact {
      legible := legible_bytes_iff.mp legible
      position := ⟨value, one, Value.number_ofText_eq_ok_iff.mp read⟩
      message := oneMessage
      execute := by rw [execute]; cases r.execute <;> rfl
      padding := (given_iff Value.number_ofText_eq_ok_iff).mpr ⟨_, options .padding, finished.padding⟩
      anchor := (given_iff Value.anchor_ofText_eq_ok_iff).mpr ⟨_, options .anchor, finished.anchor⟩
      file := opens_iff.mpr (finished.file ▸ options .file)
      query := eq_toList_iff.mpr query
      apart := finished.file ▸ finished.query ▸ finished.apart }

end Line

namespace Request

theorem ofArguments_eq_draftOf (tokens : List ByteText) :
    ofArguments tokens = Scan.draftOf {} tokens >>= Draft.finish := by
  rw [Scan.draftOf, bind_assoc]
  rfl

/-- However bytes are divided into the groups of a legible line, the request they make is the one that
the line makes. -/
theorem ofArguments_tokens_eq_ok_iff {l : ByteLine} (legible : ∀ g ∈ l.groups, g.Legible)
    {r : Request} : ofArguments l.tokens = .ok r ↔ l.Makes r := by
  have read : ofArguments l.tokens = .ok r ↔ ∃ d, Draft.Filled l.said {} d ∧ d.Finished r := by
    rw [ofArguments_eq_draftOf, bind_eq_ok_iff]
    refine exists_congr fun d => ?_
    rw [Draft.finish_eq_ok_iff, ← Draft.foldlM_add_eq_ok_iff]
    exact and_congr_left fun _ => Scan.draftOf_line legible {} d
  rw [read]
  exact ⟨fun filled => ⟨legible, filled⟩, ByteLine.Makes.filled⟩

/-- Bytes that make a request can be divided into the groups of a line that makes it. -/
theorem exists_makes_of_ofArguments {tokens : List ByteText} {r : Request}
    (accepted : ofArguments tokens = .ok r) : ∃ l : ByteLine, l.tokens = tokens ∧ l.Makes r := by
  have divided := accepted
  rw [ofArguments_eq_draftOf] at divided
  obtain ⟨d, read, -⟩ := bind_eq_ok_iff.mp divided
  obtain ⟨l, rfl, legible⟩ := Scan.line_of_draftOf read
  exact ⟨l, rfl, (ofArguments_tokens_eq_ok_iff legible).mp accepted⟩

/-- The request that tokens make is the one that a line with these tokens makes. -/
theorem ofArguments_eq_ok_iff {tokens : List Text} {r : Request} :
    ofArguments (tokens.map .ofText) = .ok r ↔ ∃ l : Line, l.tokens = tokens ∧ l.Makes r := by
  constructor
  · intro accepted
    obtain ⟨bytes, same, made⟩ := exists_makes_of_ofArguments accepted
    have whole : ∀ b ∈ bytes.tokens, b.rest = [] := by
      rw [same, List.forall_mem_map]
      exact fun t _ => rfl
    rw [← ByteLine.bytes_text whole] at same made
    rw [Line.tokens_bytes] at same
    have tokens := (List.map_inj_right fun _ _ equal => ByteText.ofText_injective equal).mp same
    exact ⟨bytes.text, tokens, Line.makes_bytes_iff.mp made⟩
  · rintro ⟨l, rfl, made⟩
    rw [← Line.tokens_bytes]
    have bytes := Line.makes_bytes_iff.mpr made
    exact (ofArguments_tokens_eq_ok_iff bytes.legible).mpr bytes

/-- The arguments that make a request are the tokens of the well-formed lines, and the request they make
is the one that the line makes. -/
theorem ofArguments_accepts_lines (tokens : List Text) :
    ((∃ r, ofArguments (tokens.map .ofText) = .ok r) ↔
      ∃ l : Line, l.tokens = tokens ∧ l.WellFormed) ∧
    ∀ r, ofArguments (tokens.map .ofText) = .ok r ↔ ∃ l : Line, l.tokens = tokens ∧ l.Makes r := by
  refine ⟨?_, fun r => ofArguments_eq_ok_iff⟩
  constructor
  · rintro ⟨r, read⟩
    obtain ⟨l, same, made⟩ := ofArguments_eq_ok_iff.mp read
    exact ⟨l, same, Line.exists_makes_iff.mp ⟨r, made⟩⟩
  · rintro ⟨l, same, formed⟩
    obtain ⟨r, made⟩ := Line.exists_makes_iff.mpr formed
    exact ⟨r, ofArguments_eq_ok_iff.mpr ⟨l, same, made⟩⟩

-- A lone dash may be a value, a negative number only of the position; behind the terminator an option
-- is a query.
example :
    ofArguments (["-p", "-1", "-m", "-", "--", "--file"].map (.ofText ·.toList)) =
      .ok { position := -1, message := ['-'], argument? := some "--file".toList } := by
  rfl

end Request

end QueryCaret
