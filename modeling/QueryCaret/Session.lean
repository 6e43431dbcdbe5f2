import QueryCaret.Diagnostic.Binding

/-!
# Sessions

A session holds one configuration and any number of diagnostics in named slots, and changes them step
by step. A step answers, and what it tells on the way are its events. A step on a slot that holds
nothing, a diagnostic at an impossible position and a refused binding change nothing.

* `get_put` — putting a diagnostic into a slot changes that slot only;
* `step_edit` — what an edit answers, and what it leaves in its slot;
* `play_cons` — a step is answered where it stands, and the later ones in the session after it;
* `play_append` — a sequence of steps is played one after the other.
-/

set_option autoImplicit false

namespace QueryCaret

/-- A change to the configuration of a session. -/
inductive ConfigEdit where
  /-- Changes nothing. -/
  | keep
  /-- Goes back to a new configuration. -/
  | reset
  | setPadding (n : Nat)
  | setAnchor (a : Anchor)
  deriving DecidableEq, Repr

def ConfigEdit.apply (c : Config) : ConfigEdit → Config
  | .keep => c
  | .reset => {}
  | .setPadding n => c.withPadding n
  | .setAnchor a => c.withAnchor a

/-- How a diagnostic is made. Only a configured one takes its layout from the session; the others have
that of a new configuration. -/
inductive Construction where
  | plain (kind : Kind) (message : Text)
  | stock (kind : Kind) (message : StockMessage)
  | configured (kind : Kind) (message : Text)
  deriving DecidableEq, Repr

def Construction.build (c : Config) (position : Position) : Construction → Diagnostic
  | .plain kind message => Config.diagnose {} kind position message
  | .stock kind message => Config.diagnose {} kind position message.text
  | .configured kind message => c.diagnose kind position message

/-- A question about a diagnostic. -/
inductive Observation where
  | state | report | code | kind
  deriving DecidableEq, Repr

inductive Step where
  | config (edit : ConfigEdit)
  | create (slot : Text) (construction : Construction) (position : Position.Source)
  | observe (slot : Text) (observation : Observation)
  | copy (slot target : Text)
  | compare (slot target : Text)
  | edit (slot : Text) (edit : Edit)
  /-- Attaches a query to a result that is a success. -/
  | attachToSuccess (slot : Text) (value : Text) (query : Text)
  deriving DecidableEq, Repr

inductive Answer where
  | config (c : Config)
  | state (d : Diagnostic)
  | text (t : Text)
  | truth (b : Bool)
  | fault (f : Fault)
  | noSuchSlot
  deriving DecidableEq, Repr

def Observation.answer (d : Diagnostic) : Observation → Traced Answer
  | .state => pure (.state d)
  | .report => .text <$> d.render
  | .code => pure (.text d.code)
  | .kind => pure (.text d.kind.label)

structure Session where
  config : Config := {}
  slots : Text → Option Diagnostic := fun _ => none

namespace Session

theorem ext_parts {s s' : Session} (config : s.config = s'.config)
    (slots : ∀ name, s.slots name = s'.slots name) : s = s' := by
  cases s
  cases s'
  congr
  exact funext slots

/-- The session with a diagnostic in a slot. -/
def put (s : Session) (slot : Text) (d : Diagnostic) : Session :=
  { s with slots := fun name => if name = slot then some d else s.slots name }

theorem get_put (s : Session) (slot name : Text) (d : Diagnostic) :
    (s.put slot d).slots name = if name = slot then some d else s.slots name := rfl

theorem put_self {s : Session} {slot : Text} {d : Diagnostic} (held : s.slots slot = some d) :
    s.put slot d = s := by
  refine ext_parts rfl fun name => ?_
  rw [get_put]
  by_cases here : name = slot
  · rw [if_pos here, here, held]
  · rw [if_neg here]

/-- Works on the diagnostic in a slot, if there is one. -/
def onSlot (s : Session) (slot : Text) (f : Diagnostic → Traced (Answer × Session)) :
    Traced (Answer × Session) :=
  match s.slots slot with
  | none => pure (.noSuchSlot, s)
  | some d => f d

/-- The answer of a step and the session after it. -/
def step (s : Session) : Step → Traced (Answer × Session)
  | .config edit =>
    let c := edit.apply s.config
    pure (.config c, { s with config := c })
  | .create slot construction position =>
    match position.read with
    | .error fault => pure (.fault fault, s)
    | .ok p =>
      let d := construction.build s.config p
      pure (.state d, s.put slot d)
  | .observe slot observation =>
    s.onSlot slot fun d => (·, s) <$> observation.answer d
  | .copy slot target =>
    s.onSlot slot fun d => pure (.state d, s.put target d)
  | .compare slot target =>
    s.onSlot slot fun d => s.onSlot target fun e => pure (.truth (d = e), s)
  | .edit slot edit =>
    s.onSlot slot fun d => do
      match ← edit.apply d with
      | .ok changed => return (.state changed, s.put slot changed)
      | .error fault => return (.fault fault, s)
  | .attachToSuccess slot value query =>
    s.onSlot slot fun _ => do
      match ← attachQuery (.ok value) query with
      | .ok value => return (.text value, s)
      | .error d => return (.state d, s)

/-- An edit of the diagnostic in a slot is stored there, and one that fails changes nothing. -/
theorem step_edit {s : Session} {slot : Text} {d : Diagnostic} (held : s.slots slot = some d)
    (edit : Edit) :
    s.step (.edit slot edit) = ⟨match (edit.apply d).value with
      | .ok changed => (.state changed, s.put slot changed)
      | .error fault => (.fault fault, s), (edit.apply d).events⟩ := by
  simp only [step, onSlot, held]
  cases changed : (edit.apply d).value with
  | ok changed => exact Traced.ext_parts (by simp [changed]) (by simp [changed])
  | error fault => exact Traced.ext_parts (by simp [changed]) (by simp [changed])

/-- What a step answers, with its events. -/
def answer (s : Session) (t : Step) : Traced Answer := Prod.fst <$> s.step t

/-- The session after a step. -/
def after (s : Session) (t : Step) : Session := (s.step t).value.2

/-- The answers of a sequence of steps, each with its events, and the session after the last. -/
def play (s : Session) : List Step → List (Traced Answer) × Session
  | [] => ([], s)
  | t :: later =>
    let first := s.step t
    let (answers, last) := first.value.2.play later
    (Prod.fst <$> first :: answers, last)

theorem play_cons (s : Session) (t : Step) (later : List Step) :
    s.play (t :: later) =
      (s.answer t :: ((s.after t).play later).1, ((s.after t).play later).2) := rfl

theorem length_play (s : Session) (steps : List Step) : (s.play steps).1.length = steps.length := by
  induction steps generalizing s with
  | nil => rfl
  | cons t later ih => rw [play_cons, List.length_cons, List.length_cons, ih]

theorem play_append (s : Session) (first later : List Step) :
    s.play (first ++ later) =
      ((s.play first).1 ++ ((s.play first).2.play later).1, ((s.play first).2.play later).2) := by
  induction first generalizing s with
  | nil => rfl
  | cons t ts ih => simp [play, ih]

end Session

end QueryCaret
