import QueryCaret.Session

/-!
# The footprint of a step

Which slots a step names, which one it may write, and what it has to do with the configuration. Two
steps with separate footprints do not notice each other.

* `slots_step` — a slot that a step does not write keeps its diagnostic;
* `config_step` — only steps that write the configuration change it.
-/

set_option autoImplicit false

namespace QueryCaret

namespace Step

/-- The slots that a step names. -/
def named : Step → List Text
  | .config _ => []
  | .create slot _ _ | .observe slot _ | .edit slot _ | .attachToSuccess slot _ _ => [slot]
  | .copy slot target | .compare slot target => [slot, target]

/-- The slot that a step may write. -/
def written? : Step → Option Text
  | .create slot _ _ | .edit slot _ => some slot
  | .copy _ target => some target
  | .config _ | .observe _ _ | .compare _ _ | .attachToSuccess _ _ _ => none

/-- Whether a step may change the configuration. -/
def writesConfig : Step → Bool
  | .config change => change ≠ .keep
  | _ => false

/-- Whether the answer or the effect of a step depends on the configuration. -/
def readsConfig : Step → Bool
  | .config _ => true
  | .create _ (.configured _ _) _ => true
  | _ => false

theorem written?_named {t : Step} {slot : Text} (h : t.written? = some slot) : slot ∈ t.named := by
  cases t <;> simp_all [written?, named]

end Step

namespace Session

theorem slots_step (s : Session) (t : Step) (name : Text) (h : t.written? ≠ some name) :
    (s.step t).value.2.slots name = s.slots name := by
  cases t with
  | config edit => rfl
  | create slot construction position =>
    have other : name ≠ slot := fun same => h (by rw [same]; rfl)
    simp only [step]
    cases position.read with
    | error fault => rfl
    | ok p => simp [put, other]
  | observe slot observation =>
    simp only [step, onSlot]
    cases s.slots slot <;> rfl
  | copy slot target =>
    have other : name ≠ target := fun same => h (by rw [same]; rfl)
    simp only [step, onSlot]
    cases s.slots slot with
    | none => rfl
    | some d => simp [put, other]
  | compare slot target =>
    simp only [step, onSlot]
    cases s.slots slot with
    | none => rfl
    | some d => cases s.slots target <;> rfl
  | edit slot edit =>
    have other : name ≠ slot := fun same => h (by rw [same]; rfl)
    simp only [step, onSlot]
    cases s.slots slot with
    | none => rfl
    | some d =>
      simp only [Traced.value_bind]
      cases (edit.apply d).value with
      | ok changed => simp [put, other]
      | error fault => rfl
  | attachToSuccess slot value query =>
    simp only [step, onSlot]
    cases s.slots slot <;> rfl

theorem config_step (s : Session) (t : Step) (h : t.writesConfig = false) :
    (s.step t).value.2.config = s.config := by
  cases t with
  | config edit => cases edit <;> simp_all [Step.writesConfig, step, ConfigEdit.apply]
  | create slot construction position =>
    simp only [step]
    cases position.read <;> rfl
  | observe slot observation =>
    simp only [step, onSlot]
    cases s.slots slot <;> rfl
  | copy slot target =>
    simp only [step, onSlot]
    cases s.slots slot <;> rfl
  | compare slot target =>
    simp only [step, onSlot]
    cases s.slots slot with
    | none => rfl
    | some d => cases s.slots target <;> rfl
  | edit slot edit =>
    simp only [step, onSlot]
    cases s.slots slot with
    | none => rfl
    | some d =>
      simp only [Traced.value_bind]
      cases (edit.apply d).value <;> rfl
  | attachToSuccess slot value query =>
    simp only [step, onSlot]
    cases s.slots slot <;> rfl

end Session

end QueryCaret
