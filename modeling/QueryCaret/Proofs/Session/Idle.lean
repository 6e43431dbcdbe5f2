import QueryCaret.Diagnostic.History
import QueryCaret.Session.Footprint

/-!
# Steps that leave no mark

A step that fails, a question, and an offer of a query that changes nothing leave a session as it was.
So the steps after them cannot tell whether they were taken: crossed out of a run, in any number and
anywhere, they take their own answers with them and nothing else.

* `isFailure_answer_iff` — when a step fails, said without taking it;
* `after_of_idle` — what leaves no mark leaves the session as it was;
* `play_uncrossed` — a run without such steps, where each of them is idle in the whole run;
* `crossesIdle_of_insertsIdle` — a step that is idle where it is put in is idle in the whole run too.
-/

set_option autoImplicit false

namespace QueryCaret

/-- Whether an answer tells that its step failed. -/
def Answer.isFailure : Answer → Bool
  | .fault _ | .noSuchSlot => true
  | .config _ | .state _ | .text _ | .truth _ => false

/-- The entries of a list that are not crossed out; where there are no marks, nothing is. -/
def uncrossed {α : Type} : List Bool → List α → List α
  | true :: marks, _ :: entries => uncrossed marks entries
  | false :: marks, entry :: entries => entry :: uncrossed marks entries
  | [], entries => entries
  | _ :: _, [] => []

namespace Session

/-- When a step fails: a slot it needs is empty, its position is none, or its query comes too late. -/
def Fails (s : Session) : Step → Prop
  | .config _ => False
  | .create _ _ position => ∃ fault, position.read = .error fault
  | .observe slot _ | .copy slot _ | .attachToSuccess slot _ _ => s.slots slot = none
  | .compare slot target => s.slots slot = none ∨ s.slots target = none
  | .edit slot (.bind _ _) => ∀ d, s.slots slot = some d → d.isBound = true
  | .edit slot (.attach _) | .edit slot (.setPadding _ _) => s.slots slot = none

/-- The steps that leave no mark. -/
inductive Idle (s : Session) : Step → Prop
  | failing {t : Step} (failed : (s.answer t).value.isFailure = true) : s.Idle t
  | bindEmpty (slot : Text) (access : Access) : s.Idle (.edit slot (.bind access []))
  | attachEmpty (slot : Text) : s.Idle (.edit slot (.attach []))
  | attachLate {slot : Text} {d : Diagnostic} (query : Text) (held : s.slots slot = some d)
      (bound : d.isBound = true) : s.Idle (.edit slot (.attach query))
  | observe (slot : Text) (observation : Observation) : s.Idle (.observe slot observation)
  | compare (slot target : Text) : s.Idle (.compare slot target)
  | attachToSuccess (slot value query : Text) : s.Idle (.attachToSuccess slot value query)
  | readConfig : s.Idle (.config .keep)

/-- An edit puts back what the use of the diagnostic leaves. -/
theorem after_edit {s : Session} {slot : Text} {d : Diagnostic} (held : s.slots slot = some d)
    (edit : Edit) : s.after (.edit slot edit) = s.put slot ((Use.edit edit).after d) := by
  rw [after, step_edit held, Use.after]
  cases (edit.apply d).value with
  | ok changed => rfl
  | error fault => exact (put_self held).symm

theorem after_edit_of_missing {s : Session} {slot : Text} (missing : s.slots slot = none)
    (edit : Edit) : s.after (.edit slot edit) = s := by
  simp only [after, step, onSlot, missing]
  rfl

/-- An edit that does nothing to any diagnostic in its slot does nothing. -/
theorem after_edit_of_same {s : Session} {slot : Text} {edit : Edit}
    (same : ∀ d, s.slots slot = some d → (Use.edit edit).after d = d) :
    s.after (.edit slot edit) = s := by
  cases held : s.slots slot with
  | none => exact after_edit_of_missing held edit
  | some d => rw [after_edit held, same d held, put_self held]

/-- A step that may write nothing leaves the session as it is. -/
theorem after_of_unwritten {t : Step} (slots : t.written? = none) (config : t.writesConfig = false)
    (s : Session) : s.after t = s :=
  ext_parts (config_step s t config) fun name => slots_step s t name (by simp [slots])

theorem after_of_fails {s : Session} {t : Step} (fails : s.Fails t) : s.after t = s := by
  cases t with
  | config edit => exact fails.elim
  | create slot construction position =>
    obtain ⟨fault, misplaced⟩ := fails
    simp only [after, step, misplaced]
    rfl
  | observe slot observation => exact after_of_unwritten rfl rfl s
  | copy slot target =>
    have missing : s.slots slot = none := fails
    simp only [after, step, onSlot, missing]
    rfl
  | compare slot target => exact after_of_unwritten rfl rfl s
  | edit slot edit =>
    cases edit with
    | bind access query =>
      refine after_edit_of_same fun d held => ?_
      rw [Use.after_bind, Use.taken, if_pos (Or.inl (fails d held))]
    | attach query => exact after_edit_of_missing fails _
    | setPadding access n => exact after_edit_of_missing fails _
  | attachToSuccess slot value query => exact after_of_unwritten rfl rfl s

/-- The steps that fail are the ones whose answer says so. -/
theorem isFailure_answer_iff (s : Session) (t : Step) :
    (s.answer t).value.isFailure = true ↔ s.Fails t := by
  cases t with
  | config edit => simp [answer, step, Fails, Answer.isFailure]
  | create slot construction position =>
    cases found : position.read <;> simp [answer, step, found, Fails, Answer.isFailure]
  | observe slot observation =>
    cases held : s.slots slot with
    | none => simp [answer, step, onSlot, held, Fails, Answer.isFailure]
    | some d =>
      cases observation <;>
        simp [answer, step, onSlot, held, Fails, Answer.isFailure, Observation.answer]
  | copy slot target =>
    cases held : s.slots slot <;> simp [answer, step, onSlot, held, Fails, Answer.isFailure]
  | compare slot target =>
    cases held : s.slots slot <;> cases there : s.slots target <;>
      simp [answer, step, onSlot, held, there, Fails, Answer.isFailure]
  | edit slot edit =>
    cases held : s.slots slot with
    | none => cases edit <;> simp [answer, step, onSlot, held, Fails, Answer.isFailure]
    | some d =>
      rw [answer, step_edit held]
      cases edit with
      | bind access query =>
        by_cases bound : d.isBound = true
        · simp [Edit.apply, Access.bind_eq, Diagnostic.bind_eq, bound, held, Fails, Answer.isFailure]
        · by_cases empty : query = [] <;>
            simp [Edit.apply, Access.bind_eq, Diagnostic.bind_eq, bound, empty, held, Fails,
              Answer.isFailure]
      | attach query => simp [Edit.apply, held, Fails, Answer.isFailure]
      | setPadding access n => simp [Edit.apply, held, Fails, Answer.isFailure]
  | attachToSuccess slot value query =>
    cases held : s.slots slot <;>
      simp [answer, step, onSlot, held, attachQuery, Fails, Answer.isFailure]

theorem after_of_idle {s : Session} {t : Step} (idle : s.Idle t) : s.after t = s := by
  cases idle with
  | failing failed => exact after_of_fails ((isFailure_answer_iff s _).mp failed)
  | bindEmpty slot access =>
    refine after_edit_of_same fun d _ => ?_
    rw [Use.after_bind, Use.taken, if_pos (Or.inr rfl)]
  | attachEmpty slot =>
    refine after_edit_of_same fun d _ => ?_
    rw [Use.after_attach, Use.taken, if_pos (Or.inr rfl)]
  | attachLate query held bound =>
    refine after_edit_of_same fun e there => ?_
    obtain rfl := Option.some.inj (held.symm.trans there)
    rw [Use.after_attach, Use.taken, if_pos (Or.inl bound)]
  | observe slot observation => exact after_of_unwritten rfl rfl s
  | compare slot target => exact after_of_unwritten rfl rfl s
  | attachToSuccess slot value query => exact after_of_unwritten rfl rfl s
  | readConfig => exact after_of_unwritten rfl rfl s

/-- The steps crossed out of a run are idle where they stand in it. -/
def CrossesIdle (s : Session) (marks : List Bool) (run : List Step) : Prop :=
  ∀ (i : Nat) (t : Step), marks[i]? = some true → run[i]? = some t → (s.play (run.take i)).2.Idle t

/-- The steps crossed out of a run are idle where they would stand in the run without them. -/
def InsertsIdle (s : Session) (marks : List Bool) (run : List Step) : Prop :=
  ∀ (i : Nat) (t : Step), marks[i]? = some true → run[i]? = some t →
    (s.play (uncrossed marks (run.take i))).2.Idle t

theorem crossesIdle_nil (s : Session) (run : List Step) : s.CrossesIdle [] run := by
  intro i t mark
  simp at mark

theorem crossesIdle_cons {s : Session} {crossed : Bool} {marks : List Bool} {t : Step}
    {later : List Step} :
    s.CrossesIdle (crossed :: marks) (t :: later) ↔
      (crossed = true → s.Idle t) ∧ (s.after t).CrossesIdle marks later := by
  constructor
  · intro idle
    refine ⟨fun mark => ?_, fun i u mark found => ?_⟩
    · exact idle 0 t (by rw [mark]; rfl) rfl
    · exact idle (i + 1) u (by simpa using mark) (by simpa using found)
  · rintro ⟨first, behind⟩ i u mark found
    cases i with
    | zero =>
      obtain rfl : t = u := by simpa using found
      exact first (by simpa using mark)
    | succ i => exact behind i u (by simpa using mark) (by simpa using found)

/-- Crossed out of a run, idle steps take their own answers with them and nothing else. -/
theorem play_uncrossed {s : Session} {marks : List Bool} {run : List Step}
    (idle : s.CrossesIdle marks run) :
    s.play (uncrossed marks run) = (uncrossed marks (s.play run).1, (s.play run).2) := by
  induction run generalizing s marks with
  | nil =>
    cases marks with
    | nil => rfl
    | cons crossed marks => cases crossed <;> rfl
  | cons t later ih =>
    cases marks with
    | nil => rfl
    | cons crossed marks =>
      obtain ⟨first, behind⟩ := crossesIdle_cons.mp idle
      have rest := ih behind
      cases crossed with
      | true =>
        have same : s.after t = s := after_of_idle (first rfl)
        simp only [uncrossed, play_cons]
        rw [← rest, same]
      | false => simp only [uncrossed, play_cons, rest]

/-- A step that is idle where it is put in is idle in the whole run: what was put in before it has left
no mark either. -/
theorem crossesIdle_of_insertsIdle {s : Session} {marks : List Bool} {run : List Step}
    (inserted : s.InsertsIdle marks run) : s.CrossesIdle marks run := by
  intro i
  induction i using Nat.strongRecOn with
  | ind i ih =>
    intro t mark found
    have before : s.CrossesIdle marks (run.take i) := by
      intro j u earlier there
      obtain ⟨inside, found⟩ : j < i ∧ run[j]? = some u := by
        simpa [List.getElem?_take] using there
      rw [List.take_take, Nat.min_eq_left (Nat.le_of_lt inside)]
      exact ih j inside u earlier found
    have here : (s.play (uncrossed marks (run.take i))).2 = (s.play (run.take i)).2 := by
      rw [play_uncrossed before]
    rw [← here]
    exact inserted i t mark found

/-- Steps that fail, questions, and offers of a query that change nothing leave no mark on a session,
however many of them a run holds and wherever they stand. Crossed out of a run, they leave the answers
of the other steps, with their events, and the session at its end as they were; and put into a run
where they are idle, they do no more. -/
theorem idle_steps_leave_no_mark {s : Session} {marks : List Bool} {run : List Step}
    (idle : s.CrossesIdle marks run ∨ s.InsertsIdle marks run) :
    s.play (uncrossed marks run) = (uncrossed marks (s.play run).1, (s.play run).2) := by
  rcases idle with crossed | inserted
  · exact play_uncrossed crossed
  · exact play_uncrossed (crossesIdle_of_insertsIdle inserted)

/-- Between a binding and a report stand a second binding, a question, a query attached too late, a
diagnostic at an impossible position and a look into an empty slot. -/
theorem report_of_run_without_idle_steps :
    let e : Text := ['e']
    let make : Step := .create e (.plain .syntactic "boom".toList) (.number 1)
    let bind (query : String) : Step := .edit e (.bind .handedOver query.toList)
    let report : Step := .observe e .report
    let misplaced : Step := .create e (.plain .execution "late".toList) (.number (-5))
    let run : List Step := [make, bind "abc", bind "x", report, .edit e (.attach "y".toList),
      misplaced, .observe ['f'] .state, report]
    let marks := [false, false, true, true, true, true, true, false]
    let s : Session := {}
    s.CrossesIdle marks run ∧
      s.play [make, bind "abc", report] = (uncrossed marks (s.play run).1, (s.play run).2) := by
  intro e make bind report misplaced run marks s
  have idle : s.CrossesIdle marks run := by
    simp only [marks, run, crossesIdle_cons]
    refine ⟨nofun, nofun, ?_, ?_, ?_, ?_, ?_, nofun, crossesIdle_nil _ _⟩
    · exact fun _ => .failing (by decide)
    · exact fun _ => .observe e .report
    · exact fun _ => .attachLate _ rfl (by decide)
    · exact fun _ => .failing (by decide)
    · exact fun _ => .failing (by decide)
  exact ⟨idle, idle_steps_leave_no_mark (Or.inl idle)⟩

end Session

end QueryCaret
