import QueryCaret.Proofs.Diagnostic.Caret
import QueryCaret.Proofs.Diagnostic.Lifecycle
import QueryCaret.Proofs.Session.Idle

/-!
# Events tell what happened

The events of a step can be told from the diagnostic before and after it. A binding is told exactly if it
took place, so over the life of a diagnostic it is told once at most: with the one it may have been made
with, the bindings told add up to whether it is bound. What is told of a window is what the report under
it shows.

* `Edit.events_apply` — the events of a change are those that its effect has to tell;
* `mem_events_iff` — everything that a step of a session tells, and when;
* `illustrates_windowOn` — what the event about a window says of the report;
* `bindings_step`, `bindings_run` — the bindings told of a diagnostic while it stays in its slot.
-/

set_option autoImplicit false

namespace QueryCaret

private theorem bound_ne_kept :
    "bound query to error".toList ≠ "keeping previously bound query".toList := by decide

private theorem bound_ne_window :
    "bound query to error".toList ≠ "computed query window".toList := by decide

private theorem kept_ne_window :
    "keeping previously bound query".toList ≠ "computed query window".toList := by decide

/-- Whether an event tells a binding. -/
def Event.tellsBinding (e : Event) : Bool := e.message = "bound query to error".toList

@[simp] theorem Event.tellsBinding_boundQuery (kind : Kind) (position : Position) (chars : Nat) :
    (boundQuery kind position chars).tellsBinding = true := decide_eq_true rfl

@[simp] theorem Event.tellsBinding_keptQuery (reason : Fault) (kind : Kind) :
    (keptQuery reason kind).tellsBinding = false := decide_eq_false bound_ne_kept.symm

/-- What a change has to tell, from the diagnostics before and after it. -/
def Edit.told (edit : Edit) (before after : Diagnostic) : List Event :=
  match before.query, after.query with
  | none, none => []
  | none, some query => [.boundQuery after.kind after.position query.length]
  | some _, _ =>
    match edit with
    | .attach _ => [.keptQuery .queryAlreadyBound before.kind]
    | .bind _ _ | .setPadding _ _ => []

theorem Edit.events_apply (edit : Edit) (d : Diagnostic) :
    (edit.apply d).events = edit.told d ((Use.edit edit).after d) := by
  cases edit with
  | bind access query =>
    rw [Use.after_bind]
    cases held : d.query with
    | none => by_cases empty : query = [] <;>
        simp [apply, told, Access.bind_eq, Diagnostic.bind_eq, Use.taken, Diagnostic.isBound, held,
          empty]
    | some first =>
      simp [apply, told, Access.bind_eq, Diagnostic.bind_eq, Use.taken, Diagnostic.isBound, held]
  | attach query =>
    rw [Use.after_attach]
    cases held : d.query with
    | none => by_cases empty : query = [] <;>
        simp [apply, told, Diagnostic.attach_eq, Use.taken, Diagnostic.isBound, held, empty]
    | some first => simp [apply, told, Diagnostic.attach_eq, Use.taken, Diagnostic.isBound, held]
  | setPadding access n =>
    rw [Use.after_setPadding]
    cases held : d.query <;> simp [apply, told, held]

theorem Edit.mem_told_iff {edit : Edit} {before after : Diagnostic} {e : Event} :
    e ∈ edit.told before after ↔
      (before.query = none ∧ ∃ query, after.query = some query ∧
        e = .boundQuery after.kind after.position query.length) ∨
      (before.isBound = true ∧ (∃ query, edit = .attach query) ∧
        e = .keptQuery .queryAlreadyBound before.kind) := by
  unfold told Diagnostic.isBound
  cases before.query with
  | none => cases after.query <;> simp
  | some first => cases edit <;> simp

theorem Edit.length_told_le (edit : Edit) (before after : Diagnostic) :
    (edit.told before after).length ≤ 1 := by
  unfold told
  cases before.query with
  | none => cases after.query <;> simp
  | some first => cases edit <;> simp

/-- A change tells of as many bindings as it makes. -/
theorem Edit.countP_told (edit : Edit) (d : Diagnostic) :
    (edit.told d ((Use.edit edit).after d)).countP Event.tellsBinding + d.isBound.toNat =
      ((Use.edit edit).after d).isBound.toNat := by
  have query := Use.query_after d (.edit edit)
  cases held : d.query with
  | none =>
    cases bound : ((Use.edit edit).after d).query <;>
      simp [told, Diagnostic.isBound, held, bound]
  | some first =>
    have kept : ((Use.edit edit).after d).query = some first := by rw [query, held, Option.some_or]
    cases edit <;> simp [told, Diagnostic.isBound, held, kept]

/-- A change that binds a diagnostic offers it a query. -/
theorem Use.binds_of_after {d : Diagnostic} {u : Use} {query : Text} (unbound : d.query = none)
    (bound : (u.after d).query = some query) : u.binds = true := by
  rw [query_after, unbound, Option.none_or, Option.filter_eq_some_iff] at bound
  rw [binds, bound.1]
  rfl

namespace Diagnostic

/-- What is told of the window on the query of a diagnostic. -/
def windowEvent (d : Diagnostic) (query : Text) : Event :=
  let w := d.windowOn query
  .computedWindow query.trim.length ((d.anchor.realign query d.position).resolve query.trim.length)
    w.caretColumn w.leftTruncated w.rightTruncated

theorem fields_windowEvent (d : Diagnostic) (query : Text) :
    (d.windowEvent query).fields =
      [("qlen".toList, Text.decimal query.trim.length),
        ("position".toList,
          Text.decimal ((d.anchor.realign query d.position).resolve query.trim.length)),
        ("caret".toList, Text.decimal (d.windowOn query).caretColumn),
        ("left".toList, if (d.windowOn query).leftTruncated then "true".toList else "false".toList),
        ("right".toList,
          if (d.windowOn query).rightTruncated then "true".toList else "false".toList)] := by
  have fields (length position caret : Nat) (left right : Bool) :
      (Event.computedWindow length position caret left right).fields =
        [("qlen".toList, Text.decimal length), ("position".toList, Text.decimal position),
          ("caret".toList, Text.decimal caret),
          ("left".toList, if left then "true".toList else "false".toList),
          ("right".toList, if right then "true".toList else "false".toList)] := by
    cases left <;> cases right <;> rfl
  exact fields _ _ _ _ _

/-- What the event about a window says of the report on it: the report shows one stretch of the trimmed
query, with an ellipsis on each side where the event says so, and under it one caret line, indented by
the caret column, the margin, and the ellipsis if it stands on the left. The indent has no bound here; it
is the program's where a 64-bit word holds it (`Window.caretOffset?_eq`). -/
structure Illustrates (d : Diagnostic) (query : Text) (caret : Nat) (left right : Bool) : Prop where
  shown : ∃ before stretch behind, query.trim = before ++ stretch ++ behind ∧
    (left = true ↔ before ≠ []) ∧ (right = true ↔ behind ≠ []) ∧
    d.HasCaret ((if left then "... ".toList else []) ++ stretch ++
      (if right then " ...".toList else [])) (caret + d.padding + if left then 4 else 0)
  only : ∀ above indent, d.HasCaret above indent →
    indent = caret + d.padding + if left then 4 else 0

theorem illustrates_windowOn {d : Diagnostic} {query : Text} (bound : d.query = some query) :
    let w := d.windowOn query
    d.Illustrates query w.caretColumn w.leftTruncated w.rightTruncated := by
  intro w
  have reads : d.HasCaret w.contextLine (w.caretOffset d.padding) := hasCaret_of_bound bound
  have indent : w.caretOffset d.padding =
      w.caretColumn + d.padding + if w.leftTruncated then 4 else 0 := by
    unfold Window.caretOffset Window.leftMarker
    cases w.leftTruncated <;> rfl
  have truthful := Window.truthful_compute query (d.anchor.realign query d.position)
  obtain ⟨before, behind, split, left, right⟩ := truthful.stretch
  rw [indent] at reads
  refine ⟨⟨before, w.text, behind, split, left, right, reads⟩, ?_⟩
  intro above other again
  exact (again.unique reads).2

end Diagnostic

namespace Session

/-- The events of a change to a diagnostic are those that its effect has to tell. -/
theorem events_edit {s : Session} {slot : Text} {d : Diagnostic} (held : s.slots slot = some d)
    (edit : Edit) :
    (s.answer (.edit slot edit)).events = edit.told d ((Use.edit edit).after d) := by
  rw [answer, Traced.events_map, step_edit held, Edit.events_apply]

theorem answer_report {s : Session} {slot : Text} {d : Diagnostic} (held : s.slots slot = some d) :
    s.answer (.observe slot .report) = .text <$> d.render := by
  simp only [answer, step, onSlot, held, Observation.answer]
  exact Traced.ext_parts rfl (by simp)

theorem events_report {s : Session} {slot : Text} {d : Diagnostic} {query : Text}
    (held : s.slots slot = some d) (bound : d.query = some query) :
    (s.answer (.observe slot .report)).events = [d.windowEvent query] := by
  rw [answer_report held, Traced.events_map, Diagnostic.events_render, bound]
  rfl

/-- Making a diagnostic tells nothing. -/
theorem events_create (s : Session) (slot : Text) (construction : Construction)
    (position : Position.Source) : (s.answer (.create slot construction position)).events = [] := by
  cases found : position.read <;> simp [answer, step, found]

/-- Neither does copying one. -/
theorem events_copy (s : Session) (slot target : Text) :
    (s.answer (.copy slot target)).events = [] := by
  cases held : s.slots slot <;> simp [answer, step, onSlot, held]

/-- Only a change to a diagnostic and the report of a bound one tell anything. -/
theorem told_of_events (s : Session) (t : Step) :
    (s.answer t).events = [] ∨
      (∃ slot edit d, t = .edit slot edit ∧ s.slots slot = some d) ∨
      ∃ slot d query, t = .observe slot .report ∧ s.slots slot = some d ∧ d.query = some query := by
  cases t with
  | config edit => exact .inl rfl
  | create slot construction position => exact .inl (s.events_create slot construction position)
  | observe slot observation =>
    cases held : s.slots slot with
    | none => exact .inl (by simp [answer, step, onSlot, held])
    | some d =>
      cases observation with
      | report =>
        cases bound : d.query with
        | none =>
          refine .inl ?_
          rw [answer_report held, Traced.events_map, Diagnostic.events_render, bound]
        | some query => exact .inr (.inr ⟨slot, d, query, rfl, held, bound⟩)
      | state | code | kind => exact .inl (by simp [answer, step, onSlot, held, Observation.answer])
  | copy slot target => exact .inl (s.events_copy slot target)
  | compare slot target =>
    refine .inl ?_
    cases held : s.slots slot <;> cases there : s.slots target <;>
      simp [answer, step, onSlot, held, there]
  | edit slot edit =>
    cases held : s.slots slot with
    | none => exact .inl (by simp [answer, step, onSlot, held])
    | some d => exact .inr (.inl ⟨slot, edit, d, rfl, held⟩)
  | attachToSuccess slot value query =>
    refine .inl ?_
    cases held : s.slots slot <;> simp [answer, step, onSlot, held, attachQuery]

theorem length_events_le (s : Session) (t : Step) : (s.answer t).events.length ≤ 1 := by
  rcases told_of_events s t with silent | ⟨slot, edit, d, rfl, held⟩ |
    ⟨slot, d, query, rfl, held, bound⟩
  · simp [silent]
  · rw [events_edit held]
    exact edit.length_told_le d _
  · simp [events_report held bound]

/-- The session after a change of a diagnostic holds the changed one. -/
theorem slots_after_edit {s : Session} {slot : Text} {d : Diagnostic} (held : s.slots slot = some d)
    (edit : Edit) : (s.after (.edit slot edit)).slots slot = some ((Use.edit edit).after d) := by
  rw [after_edit held, get_put, if_pos rfl]

/-- What a step tells, and when. -/
inductive Told (s : Session) : Step → Event → Prop
  | bound {slot : Text} {edit : Edit} {d : Diagnostic} {query : Text}
      (held : s.slots slot = some d) (unbound : d.query = none)
      (bound : ((Use.edit edit).after d).query = some query) :
      s.Told (.edit slot edit)
        (.boundQuery ((Use.edit edit).after d).kind ((Use.edit edit).after d).position query.length)
  | kept {slot : Text} {d : Diagnostic} (query : Text) (held : s.slots slot = some d)
      (bound : d.isBound = true) :
      s.Told (.edit slot (.attach query)) (.keptQuery .queryAlreadyBound d.kind)
  | window {slot : Text} {d : Diagnostic} {query : Text} (held : s.slots slot = some d)
      (bound : d.query = some query) : s.Told (.observe slot .report) (d.windowEvent query)

theorem mem_events_iff {s : Session} {t : Step} {e : Event} :
    e ∈ (s.answer t).events ↔ s.Told t e := by
  constructor
  · intro told
    rcases told_of_events s t with silent | ⟨slot, edit, d, rfl, held⟩ |
      ⟨slot, d, query, rfl, held, bound⟩
    · rw [silent] at told
      cases told
    · rw [events_edit held, Edit.mem_told_iff] at told
      rcases told with ⟨unbound, query, bound, rfl⟩ | ⟨bound, ⟨query, rfl⟩, rfl⟩
      · exact .bound held unbound bound
      · exact .kept query held bound
    · rw [events_report held bound, List.mem_singleton] at told
      subst told
      exact .window held bound
  · intro told
    cases told with
    | bound held unbound bound =>
      rw [events_edit held, Edit.mem_told_iff]
      exact .inl ⟨unbound, _, bound, rfl⟩
    | kept query held bound =>
      rw [events_edit held, Edit.mem_told_iff]
      exact .inr ⟨bound, ⟨query, rfl⟩, rfl⟩
    | window held bound =>
      rw [events_report held bound]
      exact List.mem_singleton_self _

/-- A step tells something under a message, with these details. -/
def Tells (s : Session) (t : Step) (message : String) (fields : List (Text × Text)) : Prop :=
  ∃ e ∈ (s.answer t).events, e.message = message.toList ∧ e.fields = fields

/-- A binding is told exactly if a step that offers a query turned a diagnostic from unbound to bound,
and what is told is what the diagnostic holds now. -/
theorem tells_bound_iff (s : Session) (t : Step) (fields : List (Text × Text)) :
    s.Tells t "bound query to error" fields ↔
      ∃ slot edit before after query, t = .edit slot edit ∧ (Use.edit edit).binds = true ∧
        s.slots slot = some before ∧ before.query = none ∧
        (s.after t).slots slot = some after ∧ after.query = some query ∧
        fields = [("kind".toList, after.kind.label), ("position".toList, after.position.display),
          ("chars".toList, Text.decimal query.length)] := by
  constructor
  · intro ⟨e, told, message, details⟩
    cases mem_events_iff.mp told with
    | bound held unbound bound =>
      exact ⟨_, _, _, _, _, rfl, Use.binds_of_after unbound bound, held, unbound,
        slots_after_edit held _, bound, details.symm⟩
    | kept query held bound => exact absurd message bound_ne_kept.symm
    | window held bound => exact absurd message bound_ne_window.symm
  · rintro ⟨slot, edit, before, after, query, rfl, -, held, unbound, changed, bound, details⟩
    rw [slots_after_edit held, Option.some.injEq] at changed
    subst changed
    exact ⟨_, mem_events_iff.mpr (.bound held unbound bound), rfl, details.symm⟩

/-- That a query was kept is told exactly if another one was attached after it. -/
theorem tells_kept_iff (s : Session) (t : Step) (fields : List (Text × Text)) :
    s.Tells t "keeping previously bound query" fields ↔
      ∃ slot query d, t = .edit slot (.attach query) ∧ s.slots slot = some d ∧ d.isBound = true ∧
        fields = [("error".toList, Fault.queryAlreadyBound.message), ("kind".toList, d.kind.label)] := by
  constructor
  · intro ⟨e, told, message, details⟩
    cases mem_events_iff.mp told with
    | bound held unbound bound => exact absurd message bound_ne_kept
    | kept query held bound => exact ⟨_, query, _, rfl, held, bound, details.symm⟩
    | window held bound => exact absurd message kept_ne_window.symm
  · rintro ⟨slot, query, d, rfl, held, bound, details⟩
    exact ⟨_, mem_events_iff.mpr (.kept query held bound), rfl, details.symm⟩

/-- A window is told exactly if a bound diagnostic was reported, and it is the one of its query. -/
theorem tells_window_iff (s : Session) (t : Step) (fields : List (Text × Text)) :
    s.Tells t "computed query window" fields ↔
      ∃ slot d query, t = .observe slot .report ∧ s.slots slot = some d ∧ d.query = some query ∧
        fields = (d.windowEvent query).fields := by
  constructor
  · intro ⟨e, told, message, details⟩
    cases mem_events_iff.mp told with
    | bound held unbound bound => exact absurd message bound_ne_window
    | kept query held bound => exact absurd message kept_ne_window
    | window held bound => exact ⟨_, _, _, rfl, held, bound, details.symm⟩
  · rintro ⟨slot, d, query, rfl, held, bound, details⟩
    exact ⟨_, mem_events_iff.mpr (.window held bound), rfl, details.symm⟩

/-- Whether a step puts another diagnostic into a slot. -/
def Replaces (s : Session) (t : Step) (name : Text) : Prop :=
  ¬ s.Fails t ∧ ((∃ construction position, t = .create name construction position) ∨
    ∃ slot, t = .copy slot name)

/-- No step of a run, where it stands, puts another diagnostic into the slot. -/
def Lives (s : Session) (name : Text) : List Step → Prop
  | [] => True
  | t :: later => ¬ s.Replaces t name ∧ (s.after t).Lives name later

/-- How often a step tells that the diagnostic in a slot was bound. -/
def bindingTold (s : Session) (name : Text) (t : Step) : Nat :=
  if t.written? = some name then (s.answer t).events.countP Event.tellsBinding else 0

/-- How often the steps of a run do. -/
def bindingsTold (s : Session) (name : Text) : List Step → Nat
  | [] => 0
  | t :: later => s.bindingTold name t + (s.after t).bindingsTold name later

/-- What is told of a step on a living diagnostic is what the diagnostic gained. -/
theorem bindings_step {s : Session} {t : Step} {name : Text} {d : Diagnostic}
    (held : s.slots name = some d) (lives : ¬ s.Replaces t name) :
    ∃ after, (s.after t).slots name = some after ∧
      s.bindingTold name t + d.isBound.toNat = after.isBound.toNat := by
  by_cases writes : t.written? = some name
  · have silent (quiet : (s.answer t).events = []) (fails : s.Fails t) :
        ∃ after, (s.after t).slots name = some after ∧
          s.bindingTold name t + d.isBound.toNat = after.isBound.toNat := by
      refine ⟨d, by rw [after_of_fails fails, held], ?_⟩
      rw [bindingTold, if_pos writes, quiet, List.countP_nil, Nat.zero_add]
    cases t with
    | config _ | observe _ _ | compare _ _ | attachToSuccess _ _ _ => cases writes
    | create slot construction position =>
      obtain rfl : slot = name := Option.some.inj writes
      refine silent (s.events_create slot construction position) ?_
      exact Classical.not_not.mp fun made => lives ⟨made, .inl ⟨construction, position, rfl⟩⟩
    | copy slot target =>
      obtain rfl : target = name := Option.some.inj writes
      refine silent (s.events_copy slot target) ?_
      exact Classical.not_not.mp fun made => lives ⟨made, .inr ⟨slot, rfl⟩⟩
    | edit slot edit =>
      obtain rfl : slot = name := Option.some.inj writes
      refine ⟨(Use.edit edit).after d, slots_after_edit held edit, ?_⟩
      rw [bindingTold, if_pos writes, events_edit held]
      exact edit.countP_told d
  · refine ⟨d, (slots_step s t name writes).trans held, ?_⟩
    rw [bindingTold, if_neg writes, Nat.zero_add]

/-- Over the life of a diagnostic, the bindings told add up to whether it was bound meanwhile. -/
theorem bindings_run {s : Session} {name : Text} {d : Diagnostic} {run : List Step}
    (held : s.slots name = some d) (lives : s.Lives name run) :
    ∃ last, (s.play run).2.slots name = some last ∧
      s.bindingsTold name run + d.isBound.toNat = last.isBound.toNat := by
  induction run generalizing s d with
  | nil => exact ⟨d, held, Nat.zero_add _⟩
  | cons t later ih =>
    obtain ⟨first, behind⟩ := lives
    obtain ⟨next, there, one⟩ := bindings_step held first
    obtain ⟨last, found, rest⟩ := ih there behind
    refine ⟨last, found, ?_⟩
    rw [bindingsTold]
    omega

/-- What the events of a step owe whoever reads them. -/
structure Honest (s : Session) (t : Step) : Prop where
  /-- A step tells one thing at most. -/
  single : (s.answer t).events.length ≤ 1
  copied : ∀ slot target, t = .copy slot target → (s.answer t).events = []
  bound : ∀ fields, s.Tells t "bound query to error" fields ↔
    ∃ slot edit before after query, t = .edit slot edit ∧ (Use.edit edit).binds = true ∧
      s.slots slot = some before ∧ before.query = none ∧
      (s.after t).slots slot = some after ∧ after.query = some query ∧
      fields = [("kind".toList, after.kind.label), ("position".toList, after.position.display),
        ("chars".toList, Text.decimal query.length)]
  kept : ∀ fields, s.Tells t "keeping previously bound query" fields ↔
    ∃ slot query d, t = .edit slot (.attach query) ∧ s.slots slot = some d ∧ d.isBound = true ∧
      fields = [("error".toList, Fault.queryAlreadyBound.message), ("kind".toList, d.kind.label)]
  window : (∃ fields, s.Tells t "computed query window" fields) ↔
    ∃ slot d query, t = .observe slot .report ∧ s.slots slot = some d ∧ d.query = some query
  /-- What is told of a window can be seen in the report answered. -/
  shown : ∀ fields, s.Tells t "computed query window" fields →
    ∃ slot d query caret left right, t = .observe slot .report ∧ s.slots slot = some d ∧
      d.query = some query ∧ (s.answer t).value = .text d.render.value ∧
      fields = [("qlen".toList, Text.decimal query.trim.length),
        ("position".toList,
          Text.decimal ((d.anchor.realign query d.position).resolve query.trim.length)),
        ("caret".toList, Text.decimal caret),
        ("left".toList, if left then "true".toList else "false".toList),
        ("right".toList, if right then "true".toList else "false".toList)] ∧
      d.Illustrates query caret left right

theorem honest (s : Session) (t : Step) : s.Honest t where
  single := s.length_events_le t
  copied := by
    rintro slot target rfl
    exact s.events_copy slot target
  bound := s.tells_bound_iff t
  kept := s.tells_kept_iff t
  window := by
    constructor
    · intro ⟨fields, told⟩
      obtain ⟨slot, d, query, reports, held, bound, -⟩ := (s.tells_window_iff t fields).mp told
      exact ⟨slot, d, query, reports, held, bound⟩
    · intro ⟨slot, d, query, reports, held, bound⟩
      exact ⟨_, (s.tells_window_iff t _).mpr ⟨slot, d, query, reports, held, bound, rfl⟩⟩
  shown := by
    intro fields told
    obtain ⟨slot, d, query, rfl, held, bound, rfl⟩ := (s.tells_window_iff t fields).mp told
    have seen := Diagnostic.illustrates_windowOn bound
    refine ⟨slot, d, query, _, _, _, rfl, held, bound, ?_, ?_, seen⟩
    · rw [answer_report held, Traced.value_map]
    · exact d.fields_windowEvent query

/-- The events tell the truth. Of every step, from any session, they tell a binding, a query kept and a
window computed exactly where it happened, once, and with details that the diagnostic and the report
answered bear out. Over the life of a diagnostic, from any step after it was put into its slot to any
one before it is replaced, its binding is told at most once, and exactly if it was bound meanwhile. -/
theorem events_tell_truth (s : Session) :
    (∀ t, s.Honest t) ∧
    ∀ name d run, s.slots name = some d → s.Lives name run →
      s.bindingsTold name run ≤ 1 ∧
      ∃ last, (s.play run).2.slots name = some last ∧
        s.bindingsTold name run + d.isBound.toNat = last.isBound.toNat := by
  refine ⟨s.honest, fun name d run held lives => ?_⟩
  obtain ⟨last, found, told⟩ := bindings_run held lives
  have most : last.isBound.toNat ≤ 1 := Bool.toNat_le _
  exact ⟨by omega, last, found, told⟩

end Session

end QueryCaret
