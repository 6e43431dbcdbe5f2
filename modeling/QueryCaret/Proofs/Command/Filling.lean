import QueryCaret.Command.ByteLine

/-!
# Filling in a draft

Each option has a place in the draft, and the flag and the query have one each. A group fills the place
it is for and leaves the others alone; so what the groups of a line come to is known place by place. A
place takes one value at most.

* `foldlM_add_eq_ok_iff` — groups fill in a draft if they fill each place;
* `fill_eq_ok_iff` — what fills an empty place;
* `finish_eq_ok_iff` — the request that a draft is finished to.
-/

set_option autoImplicit false

namespace QueryCaret

namespace Value

theorem text_ofText (t : Text) : text (.ofText t) = .ok t := rfl

theorem text_ofText_eq_ok_iff {t s : Text} : text (.ofText t) = .ok s ↔ t = s := by
  rw [text_ofText, Except.ok.injEq]

theorem eq_ofText_of_text {v : ByteText} {t : Text} (read : text v = .ok t) : v = .ofText t := by
  unfold text at read
  split at read
  · cases read
  · rename_i s found
    rw [← Except.ok.inj read]
    exact ByteText.eq_ofText_of_text? found

theorem number_ofText_eq_ok_iff {α : Type} {read? : Text → Option α} {t : Text} {a : α} :
    number read? (.ofText t) = .ok a ↔ read? t = some a := by
  simp only [number, text_ofText, bind, Except.bind]
  cases read? t <;> simp

theorem anchor_ofText_eq_ok_iff {t : Text} {a : Anchor} :
    anchor (.ofText t) = .ok a ↔ Anchor.ofWord? t = some a := by
  rw [anchor, ByteText.text?_ofText, Option.bind_some]
  cases Anchor.ofWord? t <;> simp

theorem path_ofText_eq_ok_iff {t : Text} {file : ByteText} :
    path (.ofText t) = .ok file ↔ t ≠ [] ∧ file = .ofText t := by
  unfold path
  by_cases empty : t = []
  · simp [empty]
  · have other : ByteText.ofText t ≠ .ofText [] := by simp [ByteText.ofText, empty]
    simp [empty, other, eq_comm]

end Value

/-- What a value of an option is read as. -/
def Parameter.Content : Parameter → Type
  | .position => Int
  | .message => Text
  | .padding => Nat
  | .anchor => Anchor
  | .file => ByteText

def Parameter.read : (p : Parameter) → ByteText → Except Usage p.Content
  | .position => Value.number Text.signed?
  | .message => Value.text
  | .padding => Value.number Text.unsigned?
  | .anchor => Value.anchor
  | .file => Value.path

namespace Draft

/-- The place of an option. -/
def get (d : Draft) : (p : Parameter) → Option p.Content
  | .position => d.position
  | .message => d.message
  | .padding => d.padding
  | .anchor => d.anchor
  | .file => d.file

def set (d : Draft) : (p : Parameter) → Option p.Content → Draft
  | .position, place => { d with position := place }
  | .message, place => { d with message := place }
  | .padding, place => { d with padding := place }
  | .anchor, place => { d with anchor := place }
  | .file, place => { d with file := place }

theorem get_set_self (d : Draft) (p : Parameter) (place : Option p.Content) :
    (d.set p place).get p = place := by
  cases p <;> rfl

theorem get_set_of_ne (d : Draft) {p q : Parameter} (other : p ≠ q) (place : Option p.Content) :
    (d.set p place).get q = d.get q := by
  cases p <;> cases q <;> first | rfl | exact absurd rfl other

theorem execute_set (d : Draft) (p : Parameter) (place : Option p.Content) :
    (d.set p place).execute = d.execute := by
  cases p <;> rfl

theorem query_set (d : Draft) (p : Parameter) (place : Option p.Content) :
    (d.set p place).query = d.query := by
  cases p <;> rfl

theorem ext_places {d d' : Draft} (places : ∀ p, d.get p = d'.get p)
    (execute : d.execute = d'.execute) (query : d.query = d'.query) : d = d' := by
  cases d
  cases d'
  simp only [mk.injEq]
  exact ⟨places .position, places .message, execute, places .padding, places .anchor, places .file,
    query⟩

theorem put_eq (d : Draft) (p : Parameter) (v : ByteText) :
    d.put p v = once (d.get p) (p.read v) >>= fun place => .ok (d.set p place) := by
  cases p <;> rfl

/-- An option fills its place and no other. -/
theorem put_eq_ok_iff {d after : Draft} {p : Parameter} {v : ByteText} :
    d.put p v = .ok after ↔
      ∃ place, once (d.get p) (p.read v) = .ok place ∧ d.set p place = after := by
  simp only [put_eq, bind_eq_ok_iff, Except.ok.injEq]

theorem signed?_of_put {d after : Draft} {v : ByteText} (put : d.put .position v = .ok after) :
    ∃ t n, v = .ofText t ∧ Text.signed? t = some n := by
  obtain ⟨place, taken, -⟩ := put_eq_ok_iff.mp put
  obtain ⟨-, n, numeral, -⟩ := once_eq_ok_iff.mp taken
  obtain ⟨t, whole, -⟩ := bind_eq_ok_iff.mp numeral
  obtain rfl := Value.eq_ofText_of_text whole
  exact ⟨t, n, rfl, Value.number_ofText_eq_ok_iff.mp numeral⟩

theorem putExecute_eq_ok_iff {d after : Draft} :
    d.putExecute = .ok after ↔ d.execute = false ∧ { d with execute := true } = after := by
  unfold putExecute
  cases d.execute <;> simp

theorem putQuery_eq_ok_iff {d after : Draft} {v : ByteText} :
    d.putQuery v = .ok after ↔
      ∃ place, once d.query (Value.text v) = .ok place ∧ { d with query := place } = after := by
  simp only [putQuery, bind_eq_ok_iff, pure, Except.pure, Except.ok.injEq]

theorem query_put {d after : Draft} {p : Parameter} {v : ByteText} (put : d.put p v = .ok after) :
    after.query = d.query := by
  obtain ⟨place, -, rfl⟩ := put_eq_ok_iff.mp put
  exact query_set d p place

theorem query_putQuery {d after : Draft} {v : ByteText} (put : d.putQuery v = .ok after) :
    after.query.isSome = true := by
  obtain ⟨place, taken, rfl⟩ := putQuery_eq_ok_iff.mp put
  obtain ⟨-, text, -, rfl⟩ := once_eq_ok_iff.mp taken
  rfl

/-- The draft with what a group says. -/
def add (d : Draft) : ByteGroup → Except Usage Draft
  | .option p _ v => d.put p v
  | .execute => d.putExecute
  | .query text => d.putQuery text

/-- Puts values into a place one after the other. -/
def fill {α : Type} (read : ByteText → Except Usage α) (place : Option α)
    (values : List ByteText) : Except Usage (Option α) :=
  values.foldlM (fun place v => once place (read v)) place

theorem fill_cons_eq_ok_iff {α : Type} {read : ByteText → Except Usage α} {place after : Option α}
    {v : ByteText} {values : List ByteText} :
    fill read place (v :: values) = .ok after ↔
      ∃ mid, once place (read v) = .ok mid ∧ fill read mid values = .ok after :=
  bind_eq_ok_iff

/-- An empty place stays empty or takes the only value. -/
theorem fill_eq_ok_iff {α : Type} {read : ByteText → Except Usage α} {values : List ByteText}
    {after : Option α} :
    fill read none values = .ok after ↔
      values = [] ∧ after = none ∨ ∃ v a, values = [v] ∧ read v = .ok a ∧ after = some a := by
  match values with
  | [] => simp [fill, pure, Except.pure, eq_comm]
  | [v] =>
    have last (mid : Option α) : fill read mid [] = .ok after ↔ mid = after :=
      ⟨Except.ok.inj, congrArg Except.ok⟩
    simp only [fill_cons_eq_ok_iff, last, once_eq_ok_iff]
    simp [eq_comm]
  | v :: w :: values =>
    -- The first value is in the way of the second one.
    have refused : fill read none (v :: w :: values) ≠ .ok after := by
      intro filled
      obtain ⟨mid, first, others⟩ := fill_cons_eq_ok_iff.mp filled
      obtain ⟨place, second, -⟩ := fill_cons_eq_ok_iff.mp others
      obtain ⟨-, a, -, rfl⟩ := once_eq_ok_iff.mp first
      cases (once_eq_ok_iff.mp second).1
    simp [refused]

/-- The groups fill the places of one draft to those of another. -/
structure Filled (groups : List ByteGroup) (d after : Draft) : Prop where
  options : ∀ p : Parameter,
    fill p.read (d.get p) (groups.filterMap (ByteGroup.value? p)) = .ok (after.get p)
  execute : groups.count .execute + d.execute.toNat = after.execute.toNat
  query : fill Value.text d.query (groups.filterMap ByteGroup.query?) = .ok after.query

theorem filled_option {p : Parameter} {spelling : Spelling} {v : ByteText} {groups : List ByteGroup}
    {d after : Draft} : Filled (.option p spelling v :: groups) d after ↔
      ∃ mid, d.put p v = .ok mid ∧ Filled groups mid after := by
  have here : (ByteGroup.option p spelling v :: groups).filterMap (ByteGroup.value? p) =
      v :: groups.filterMap (ByteGroup.value? p) := by
    simp [ByteGroup.value?]
  have elsewhere {q : Parameter} (other : p ≠ q) :
      (ByteGroup.option p spelling v :: groups).filterMap (ByteGroup.value? q) =
        groups.filterMap (ByteGroup.value? q) := by
    simp [ByteGroup.value?, other]
  have flags : (ByteGroup.option p spelling v :: groups).count .execute = groups.count .execute :=
    List.count_cons_of_ne (by simp)
  constructor
  · rintro ⟨options, execute, query⟩
    have own := options p
    rw [here] at own
    obtain ⟨place, taken, others⟩ := fill_cons_eq_ok_iff.mp own
    refine ⟨d.set p place, put_eq_ok_iff.mpr ⟨place, taken, rfl⟩, fun q => ?_, ?_, ?_⟩
    · by_cases other : p = q
      · subst other
        rwa [get_set_self]
      · rw [get_set_of_ne d other, ← elsewhere other]
        exact options q
    · rw [execute_set, ← flags]
      exact execute
    · rw [query_set]
      exact query
  · rintro ⟨mid, put, options, execute, query⟩
    obtain ⟨place, taken, rfl⟩ := put_eq_ok_iff.mp put
    refine ⟨fun q => ?_, ?_, ?_⟩
    · by_cases other : p = q
      · subst other
        have others := options p
        rw [get_set_self] at others
        rw [here]
        exact fill_cons_eq_ok_iff.mpr ⟨place, taken, others⟩
      · rw [elsewhere other, ← get_set_of_ne d other]
        exact options q
    · rw [flags, ← execute_set]
      exact execute
    · rw [query_set] at query
      exact query

theorem filled_execute {groups : List ByteGroup} {d after : Draft} :
    Filled (.execute :: groups) d after ↔
      ∃ mid, d.putExecute = .ok mid ∧ Filled groups mid after := by
  have places (p : Parameter) : ({ d with execute := true } : Draft).get p = d.get p := by
    cases p <;> rfl
  constructor
  · rintro ⟨options, execute, query⟩
    rw [List.count_cons_self] at execute
    cases flag : d.execute with
    | true =>
      -- Together with the flag that is there already there would be two.
      have one := Bool.toNat_le after.execute
      rw [flag, Bool.toNat_true] at execute
      omega
    | false =>
      refine ⟨_, putExecute_eq_ok_iff.mpr ⟨flag, rfl⟩, fun p => ?_, ?_, query⟩
      · rw [places]
        exact options p
      · rw [flag] at execute
        exact execute
  · rintro ⟨mid, put, options, execute, query⟩
    obtain ⟨flag, rfl⟩ := putExecute_eq_ok_iff.mp put
    refine ⟨fun p => ?_, ?_, query⟩
    · rw [← places]
      exact options p
    · rw [List.count_cons_self, flag]
      exact execute

theorem filled_query {text : ByteText} {groups : List ByteGroup} {d after : Draft} :
    Filled (.query text :: groups) d after ↔
      ∃ mid, d.putQuery text = .ok mid ∧ Filled groups mid after := by
  have flags : (ByteGroup.query text :: groups).count .execute = groups.count .execute :=
    List.count_cons_of_ne (by simp)
  have places (place : Option Text) (p : Parameter) :
      ({ d with query := place } : Draft).get p = d.get p := by
    cases p <;> rfl
  constructor
  · rintro ⟨options, execute, query⟩
    obtain ⟨place, taken, others⟩ := fill_cons_eq_ok_iff.mp query
    refine ⟨_, putQuery_eq_ok_iff.mpr ⟨place, taken, rfl⟩, fun p => ?_, ?_, others⟩
    · rw [places]
      exact options p
    · rw [← flags]
      exact execute
  · rintro ⟨mid, put, options, execute, query⟩
    obtain ⟨place, taken, rfl⟩ := putQuery_eq_ok_iff.mp put
    refine ⟨fun p => ?_, ?_, fill_cons_eq_ok_iff.mpr ⟨place, taken, query⟩⟩
    · rw [← places place]
      exact options p
    · rw [flags]
      exact execute

theorem filled_cons {g : ByteGroup} {groups : List ByteGroup} {d after : Draft} :
    Filled (g :: groups) d after ↔ ∃ mid, d.add g = .ok mid ∧ Filled groups mid after := by
  cases g with
  | option p spelling v => exact filled_option
  | execute => exact filled_execute
  | query text => exact filled_query

theorem filled_nil {d after : Draft} : Filled [] d after ↔ d = after := by
  constructor
  · rintro ⟨options, execute, query⟩
    rw [List.count_nil, Nat.zero_add] at execute
    have flag : d.execute = after.execute := by
      revert execute
      cases d.execute <;> cases after.execute <;> decide
    exact ext_places (fun p => Except.ok.inj (options p)) flag (Except.ok.inj query)
  · rintro rfl
    exact ⟨fun p => rfl, Nat.zero_add _, rfl⟩

theorem foldlM_add_eq_ok_iff {groups : List ByteGroup} {d after : Draft} :
    groups.foldlM add d = .ok after ↔ Filled groups d after := by
  induction groups generalizing d with
  | nil =>
    rw [filled_nil]
    exact ⟨Except.ok.inj, congrArg Except.ok⟩
  | cons g groups ih =>
    rw [List.foldlM_cons, bind_eq_ok_iff, filled_cons]
    exact exists_congr fun mid => and_congr_right fun _ => ih

/-- The request that a draft stands for, where it stands for one. -/
structure Finished (d : Draft) (r : Request) : Prop where
  position : d.position = some r.position
  message : d.message = some r.message
  execute : d.execute = r.execute
  padding : d.padding.getD defaultPadding = r.padding
  anchor : d.anchor.getD .trimmed = r.anchor
  file : d.file = r.file?
  query : d.query = r.argument?
  apart : d.file = none ∨ d.query = none

theorem finish_eq_ok_iff {d : Draft} {r : Request} : d.finish = .ok r ↔ d.Finished r := by
  unfold finish
  constructor
  · intro finished
    split at finished
    · cases finished
    · rename_i one
      split at finished
      · rename_i position message
        obtain rfl := Except.ok.inj finished
        refine ⟨position, message, rfl, rfl, rfl, rfl, rfl, ?_⟩
        cases file : d.file with
        | none => exact .inl rfl
        | some path => exact .inr (by simpa [file] using one)
      · cases finished
  · intro finished
    have one : ¬ (d.file.isSome ∧ d.query.isSome) := by
      rcases finished.apart with absent | absent <;> simp [absent]
    rw [if_neg one, finished.position, finished.message]
    simp only [finished.execute, finished.padding, finished.anchor, finished.file, finished.query]

end Draft

/-- The request that a line of bytes makes is the one that its groups fill in. -/
structure ByteLine.Makes (l : ByteLine) (r : Request) : Prop where
  legible : ∀ g ∈ l.groups, g.Legible
  filled : ∃ d, Draft.Filled l.said {} d ∧ d.Finished r

end QueryCaret
