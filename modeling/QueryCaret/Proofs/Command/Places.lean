import QueryCaret.Proofs.Command.Filling

/-!
# Places

Every group is for one place of the draft, and a place that is taken takes nothing more. So groups fill
in a draft exactly if what each says can be read and no two of them are for the same place. Neither
depends on their order, and both are kept when groups are left out.

* `add_of_taken`, `exists_add_iff` — when a group goes into a draft, and how it is refused;
* `taken_of_foldlM` — the places that groups take are theirs;
* `exists_foldlM_add_iff`, `exists_filled` — which groups fill in a draft, and what it has then;
* `fills_or_clashes`, `foldlM_of_clash` — what can be read and does not fill in a draft names a place
  again, and is refused for that.
-/

set_option autoImplicit false

namespace QueryCaret

/-- A place of the draft. -/
inductive Place where
  | option (p : Parameter)
  | execute
  | query
  deriving DecidableEq

namespace ByteGroup

/-- The place that a group is for. -/
def place : ByteGroup → Place
  | .option p _ _ => .option p
  | .execute => .execute
  | .query _ => .query

/-- Whether what a group says can be read as what it is for. -/
def Readable : ByteGroup → Prop
  | .option p _ v => ∃ content, p.read v = .ok content
  | .execute => True
  | .query v => ∃ text, Value.text v = .ok text

end ByteGroup

namespace Draft

/-- Whether a place has something in it. -/
def Taken (d : Draft) : Place → Prop
  | .option p => d.get p ≠ none
  | .execute => d.execute = true
  | .query => d.query ≠ none

theorem not_taken_empty (q : Place) : ¬ Taken {} q := by
  cases q with
  | option p => cases p <;> exact fun taken => taken rfl
  | execute => exact Bool.false_ne_true
  | query => exact fun taken => taken rfl

theorem once_of_ne_none {α : Type} {place : Option α} (taken : place ≠ none)
    (value : Except Usage α) : once place value = .error .conflict := by
  rw [once, if_pos (Option.isSome_iff_ne_none.mpr taken)]

/-- A place that is taken takes nothing more, whether it could be read or not. -/
theorem add_of_taken {d : Draft} {g : ByteGroup} (taken : d.Taken g.place) :
    d.add g = .error .conflict := by
  cases g with
  | option p spelling v =>
    rw [add, put_eq, once_of_ne_none taken]
    rfl
  | execute => exact if_pos taken
  | query v =>
    rw [add, putQuery, once_of_ne_none taken]
    rfl

theorem exists_once_iff {α : Type} {place : Option α} {value : Except Usage α} :
    (∃ after, once place value = .ok after) ↔ place = none ∧ ∃ a, value = .ok a := by
  simp only [once_eq_ok_iff]
  constructor
  · rintro ⟨_, free, a, read, rfl⟩
    exact ⟨free, a, read⟩
  · rintro ⟨free, a, read⟩
    exact ⟨some a, free, a, read, rfl⟩

/-- A group goes into a draft if its place is free and what it says can be read. -/
theorem exists_add_iff {d : Draft} {g : ByteGroup} :
    (∃ after, d.add g = .ok after) ↔ ¬ d.Taken g.place ∧ g.Readable := by
  cases g with
  | option p spelling v =>
    simp only [add, put_eq_ok_iff, ByteGroup.place, Taken, ByteGroup.Readable, ne_eq,
      Classical.not_not]
    rw [← exists_once_iff]
    constructor
    · rintro ⟨after, place, put, -⟩
      exact ⟨place, put⟩
    · rintro ⟨place, put⟩
      exact ⟨d.set p place, place, put, rfl⟩
  | execute =>
    simp only [add, putExecute_eq_ok_iff, ByteGroup.place, Taken, ByteGroup.Readable, and_true,
      Bool.not_eq_true]
    constructor
    · rintro ⟨after, free, -⟩
      exact free
    · intro free
      exact ⟨{ d with execute := true }, free, rfl⟩
  | query v =>
    simp only [add, putQuery_eq_ok_iff, ByteGroup.place, Taken, ByteGroup.Readable, ne_eq,
      Classical.not_not]
    rw [← exists_once_iff]
    constructor
    · rintro ⟨after, place, put, -⟩
      exact ⟨place, put⟩
    · rintro ⟨place, put⟩
      exact ⟨_, place, put, rfl⟩

/-- A group takes its place and no other. -/
theorem taken_of_add {d after : Draft} {g : ByteGroup} (added : d.add g = .ok after) (q : Place) :
    after.Taken q ↔ q = g.place ∨ d.Taken q := by
  cases g with
  | option p spelling v =>
    obtain ⟨place, put, rfl⟩ := put_eq_ok_iff.mp added
    obtain ⟨-, a, -, rfl⟩ := once_eq_ok_iff.mp put
    cases q with
    | option other =>
      by_cases same : other = p
      · subst same
        simp [Taken, ByteGroup.place, get_set_self]
      · simp [Taken, ByteGroup.place, get_set_of_ne d (Ne.symm same), same]
    | execute => simp [Taken, ByteGroup.place, execute_set]
    | query => simp [Taken, ByteGroup.place, query_set]
  | execute =>
    obtain ⟨-, rfl⟩ := putExecute_eq_ok_iff.mp added
    cases q with
    | option p => cases p <;> simp [Taken, ByteGroup.place, get]
    | execute | query => simp [Taken, ByteGroup.place]
  | query v =>
    obtain ⟨place, put, rfl⟩ := putQuery_eq_ok_iff.mp added
    obtain ⟨-, a, -, rfl⟩ := once_eq_ok_iff.mp put
    cases q with
    | option p => cases p <;> simp [Taken, ByteGroup.place, get]
    | execute | query => simp [Taken, ByteGroup.place]

/-- The places that groups take are theirs. -/
theorem taken_of_foldlM {groups : List ByteGroup} {d after : Draft}
    (filled : groups.foldlM add d = .ok after) (q : Place) :
    after.Taken q ↔ q ∈ groups.map ByteGroup.place ∨ d.Taken q := by
  induction groups generalizing d with
  | nil =>
    obtain rfl := Except.ok.inj filled
    simp
  | cons g groups ih =>
    rw [List.foldlM_cons] at filled
    obtain ⟨mid, added, others⟩ := bind_eq_ok_iff.mp filled
    rw [ih others, taken_of_add added, List.map_cons, List.mem_cons]
    exact or_left_comm.trans or_assoc.symm

/-- Groups fill in a draft if what each says can be read, no two are for the same place, and no place
is taken before. -/
theorem exists_foldlM_add_iff {groups : List ByteGroup} {d : Draft} :
    (∃ after, groups.foldlM add d = .ok after) ↔
      (∀ g ∈ groups, g.Readable) ∧ (groups.map ByteGroup.place).Nodup ∧
        ∀ q ∈ groups.map ByteGroup.place, ¬ d.Taken q := by
  induction groups generalizing d with
  | nil => simp [pure, Except.pure]
  | cons g groups ih =>
    have steps : (∃ after, (g :: groups).foldlM add d = .ok after) ↔
        ∃ mid, d.add g = .ok mid ∧ ∃ after, groups.foldlM add mid = .ok after := by
      simp only [List.foldlM_cons, bind_eq_ok_iff]
      exact exists_comm.trans (exists_congr fun mid => exists_and_left)
    rw [steps, List.forall_mem_cons, List.map_cons, List.nodup_cons, List.forall_mem_cons]
    constructor
    · rintro ⟨mid, added, filled⟩
      obtain ⟨free, readable⟩ := exists_add_iff.mp ⟨mid, added⟩
      obtain ⟨others, apart, untaken⟩ := ih.mp filled
      refine ⟨⟨readable, others⟩, ⟨?_, apart⟩, free, ?_⟩
      · intro again
        exact untaken _ again ((taken_of_add added _).mpr (.inl rfl))
      · intro q member taken
        exact untaken q member ((taken_of_add added q).mpr (.inr taken))
    · rintro ⟨⟨readable, others⟩, ⟨once, apart⟩, free, untaken⟩
      obtain ⟨mid, added⟩ := exists_add_iff.mpr ⟨free, readable⟩
      refine ⟨mid, added, ih.mpr ⟨others, apart, ?_⟩⟩
      intro q member taken
      rcases (taken_of_add added q).mp taken with rfl | before
      · exact once member
      · exact untaken q member before

/-- Groups for different places fill in a draft with these places. -/
theorem exists_filled {groups : List ByteGroup} (readable : ∀ g ∈ groups, g.Readable)
    (once : (groups.map ByteGroup.place).Nodup) :
    ∃ d, groups.foldlM add {} = .ok d ∧ ∀ q, d.Taken q ↔ q ∈ groups.map ByteGroup.place := by
  have free : ∀ q ∈ groups.map ByteGroup.place, ¬ Taken {} q := fun q _ => not_taken_empty q
  obtain ⟨d, filled⟩ := exists_foldlM_add_iff.mpr ⟨readable, once, free⟩
  refine ⟨d, filled, fun q => ?_⟩
  rw [taken_of_foldlM filled, or_iff_left (not_taken_empty q)]

/-- Groups that can be read fill in a draft, or there is a first one whose place is taken. -/
theorem fills_or_clashes {groups : List ByteGroup} (readable : ∀ g ∈ groups, g.Readable) (d : Draft) :
    (∃ after, groups.foldlM add d = .ok after) ∨
      ∃ front g rest mid, groups = front ++ g :: rest ∧ front.foldlM add d = .ok mid ∧
        mid.Taken g.place := by
  induction groups generalizing d with
  | nil => exact .inl ⟨d, rfl⟩
  | cons g groups ih =>
    obtain ⟨first, others⟩ := List.forall_mem_cons.mp readable
    by_cases taken : d.Taken g.place
    · exact .inr ⟨[], g, groups, d, rfl, rfl, taken⟩
    · obtain ⟨mid, added⟩ := exists_add_iff.mpr ⟨taken, first⟩
      have step (more : List ByteGroup) : (g :: more).foldlM add d = more.foldlM add mid := by
        rw [List.foldlM_cons, added]
        rfl
      rcases ih others mid with ⟨after, filled⟩ | ⟨front, h, rest, last, rfl, filled, again⟩
      · exact .inl ⟨after, (step groups).trans filled⟩
      · exact .inr ⟨g :: front, h, rest, last, rfl, (step front).trans filled, again⟩

theorem foldlM_of_clash {front rest : List ByteGroup} {g : ByteGroup} {d mid : Draft}
    (filled : front.foldlM add d = .ok mid) (taken : mid.Taken g.place) :
    (front ++ g :: rest).foldlM add d = .error .conflict := by
  have refused : (g :: rest).foldlM add mid = .error .conflict := by
    rw [List.foldlM_cons, add_of_taken taken]
    rfl
  rw [List.foldlM_append, filled]
  exact refused

end Draft

end QueryCaret
