import QueryCaret.Session.Footprint

/-!
# Diagnostics do not disturb each other

A step looks at the slots it names and, if it has to do with the configuration, at that; of these it
changes one slot or the configuration. So its answer, its events and its effect are the same in any two
sessions that agree on them. Two steps with nothing in common can therefore be swapped, and a
diagnostic keeps the layout it was made with until a step writes its slot, whatever becomes of the
configuration.

* `agree_after` — a step does the same in sessions that agree on its footprint;
* `after_comm` — separate steps lead to the same session in either order;
* `play_swap` — and have the same answers, in the middle of any run;
* `slots_play` — a slot that no step of a run writes is as it was.
-/

set_option autoImplicit false

namespace QueryCaret

namespace Step

/-- Whether a step has to do with the configuration at all. -/
def usesConfig (t : Step) : Bool := t.readsConfig || t.writesConfig

/-- Two steps with nothing in common but a configuration that both leave alone. -/
structure Separate (a b : Step) : Prop where
  slots : ∀ name ∈ a.named, name ∉ b.named
  config : a.usesConfig = false ∨ b.usesConfig = false ∨
    a.writesConfig = false ∧ b.writesConfig = false

theorem Separate.symm {a b : Step} (h : a.Separate b) : b.Separate a where
  slots := fun name inB inA => h.slots name inA inB
  config := by
    rcases h.config with a | b | ⟨a, b⟩
    · exact Or.inr (Or.inl a)
    · exact Or.inl b
    · exact Or.inr (Or.inr ⟨b, a⟩)

theorem readsConfig_of_writesConfig {t : Step} (writes : t.writesConfig = true) :
    t.readsConfig = true := by
  cases t <;> simp_all [writesConfig, readsConfig]

/-- A step that is separate from one that reads the configuration does not write it. -/
theorem Separate.writesConfig_eq_false {a b : Step} (h : a.Separate b)
    (reads : a.readsConfig = true) : b.writesConfig = false := by
  rcases h.config with unused | unused | ⟨-, unwritten⟩
  · simp [usesConfig, reads] at unused
  · rw [usesConfig, Bool.or_eq_false_iff] at unused
    exact unused.2
  · exact unwritten

end Step

/-- The configuration that a diagnostic takes its layout from when it is made. -/
def Construction.layout (c : Config) : Construction → Config
  | .configured _ _ => c
  | .plain _ _ | .stock _ _ => { padding := defaultPadding, anchor := .trimmed }

namespace Session

/-- Two sessions that a step cannot tell apart. -/
structure AgreeFor (t : Step) (s s' : Session) : Prop where
  slots : ∀ name ∈ t.named, s.slots name = s'.slots name
  config : t.readsConfig = true → s.config = s'.config

theorem AgreeFor.put {t : Step} {s s' : Session} (h : AgreeFor t s s') (slot : Text)
    (d : Diagnostic) : AgreeFor t (s.put slot d) (s'.put slot d) where
  slots := by
    intro name inside
    rw [get_put, get_put, h.slots name inside]
  config := h.config

/-- A step has the same answer and events in sessions that it cannot tell apart, nor can it after. -/
theorem agree_after {t : Step} {s s' : Session} (h : AgreeFor t s s') :
    s.answer t = s'.answer t ∧ AgreeFor t (s.after t) (s'.after t) := by
  cases t with
  | config edit =>
    have same := h.config rfl
    simp only [answer, after, step, same]
    exact ⟨rfl, h.slots, fun _ => rfl⟩
  | create slot construction position =>
    have same (p : Position) : construction.build s.config p = construction.build s'.config p := by
      cases construction with
      | plain kind message => rfl
      | stock kind message => rfl
      | configured kind message => rw [h.config rfl]
    simp only [answer, after, step, same]
    cases position.read with
    | error fault => exact ⟨rfl, h⟩
    | ok p => exact ⟨rfl, h.put slot _⟩
  | observe slot observation =>
    have held := h.slots slot (by simp [Step.named])
    simp only [answer, after, step, onSlot, held]
    cases s'.slots slot with
    | none => exact ⟨rfl, h⟩
    | some d => exact ⟨rfl, h⟩
  | copy slot target =>
    have held := h.slots slot (by simp [Step.named])
    simp only [answer, after, step, onSlot, held]
    cases s'.slots slot with
    | none => exact ⟨rfl, h⟩
    | some d => exact ⟨rfl, h.put target d⟩
  | compare slot target =>
    have held := h.slots slot (by simp [Step.named])
    have heldToo := h.slots target (by simp [Step.named])
    simp only [answer, after, step, onSlot, held, heldToo]
    cases s'.slots slot with
    | none => exact ⟨rfl, h⟩
    | some d =>
      cases s'.slots target with
      | none => exact ⟨rfl, h⟩
      | some e => exact ⟨rfl, h⟩
  | edit slot edit =>
    have held := h.slots slot (by simp [Step.named])
    cases there : s'.slots slot with
    | none =>
      rw [there] at held
      simp only [answer, after, step, onSlot, held, there]
      exact ⟨rfl, h⟩
    | some d =>
      rw [there] at held
      simp only [answer, after, step_edit held, step_edit there]
      cases (edit.apply d).value with
      | ok changed => exact ⟨rfl, h.put slot changed⟩
      | error fault => exact ⟨rfl, h⟩
  | attachToSuccess slot value query =>
    have held := h.slots slot (by simp [Step.named])
    simp only [answer, after, step, onSlot, held]
    cases s'.slots slot with
    | none => exact ⟨rfl, h⟩
    | some d => exact ⟨rfl, h⟩

/-- A step cannot tell whether a separate one has been taken. -/
theorem agreeFor_after {a b : Step} (separate : a.Separate b) (s : Session) :
    AgreeFor a s (s.after b) where
  slots := by
    intro name inside
    have unwritten : b.written? ≠ some name := fun written =>
      separate.slots name inside (Step.written?_named written)
    exact (slots_step s b name unwritten).symm
  config := by
    intro reads
    exact (config_step s b (separate.writesConfig_eq_false reads)).symm

theorem answer_after {a b : Step} (separate : a.Separate b) (s : Session) :
    (s.after b).answer a = s.answer a :=
  (agree_after (agreeFor_after separate s)).1.symm

/-- What a step has to do with ends up the same whether a separate step is taken after or before it. -/
theorem agreeFor_comm {a b : Step} (separate : a.Separate b) (s : Session) :
    AgreeFor a ((s.after a).after b) ((s.after b).after a) := by
  have unseen := agreeFor_after separate (s.after a)
  have alike := (agree_after (agreeFor_after separate s)).2
  exact {
    slots := fun name inside => (unseen.slots name inside).symm.trans (alike.slots name inside)
    config := fun reads => (unseen.config reads).symm.trans (alike.config reads) }

theorem slots_after_of_notMem {t : Step} {name : Text} (outside : name ∉ t.named) (s : Session) :
    (s.after t).slots name = s.slots name :=
  slots_step s t name fun written => outside (Step.written?_named written)

/-- Separate steps lead to the same session in either order. -/
theorem after_comm {a b : Step} (separate : a.Separate b) (s : Session) :
    (s.after a).after b = (s.after b).after a := by
  have onA := agreeFor_comm separate s
  have onB := agreeFor_comm separate.symm s
  apply ext_parts
  · by_cases writesA : a.writesConfig = true
    · exact onA.config (Step.readsConfig_of_writesConfig writesA)
    · by_cases writesB : b.writesConfig = true
      · exact (onB.config (Step.readsConfig_of_writesConfig writesB)).symm
      · have keptA (s : Session) : (s.after a).config = s.config :=
          config_step s a (Bool.eq_false_iff.mpr writesA)
        have keptB (s : Session) : (s.after b).config = s.config :=
          config_step s b (Bool.eq_false_iff.mpr writesB)
        rw [keptB, keptA, keptA, keptB]
  · intro name
    by_cases inA : name ∈ a.named
    · exact onA.slots name inA
    · by_cases inB : name ∈ b.named
      · exact (onB.slots name inB).symm
      · rw [slots_after_of_notMem inB, slots_after_of_notMem inA, slots_after_of_notMem inA,
          slots_after_of_notMem inB]

/-- In the middle of any run two separate steps can be swapped, and nothing else is noticed. -/
theorem play_swap {a b : Step} (separate : a.Separate b) (s : Session) (earlier later : List Step) :
    ∃ before x y behind last, before.length = earlier.length ∧
      s.play (earlier ++ a :: b :: later) = (before ++ x :: y :: behind, last) ∧
      s.play (earlier ++ b :: a :: later) = (before ++ y :: x :: behind, last) := by
  let here := (s.play earlier).2
  let there := (here.after a).after b
  refine ⟨(s.play earlier).1, here.answer a, here.answer b, (there.play later).1,
    (there.play later).2, length_play s earlier, ?_, ?_⟩
  · simp only [play_append, play_cons]
    rw [answer_after separate.symm]
  · simp only [play_append, play_cons]
    rw [answer_after separate, after_comm separate.symm]

/-- A diagnostic is as it was after a run that does not write its slot. -/
theorem slots_play {name : Text} {run : List Step} (unwritten : ∀ t ∈ run, t.written? ≠ some name)
    (s : Session) : (s.play run).2.slots name = s.slots name := by
  induction run generalizing s with
  | nil => rfl
  | cons t later ih =>
    have first : (s.after t).slots name = s.slots name :=
      slots_step s t name (unwritten t List.mem_cons_self)
    have rest := ih (fun u inside => unwritten u (List.mem_cons_of_mem t inside)) (s.after t)
    rw [play_cons, rest, first]

theorem built_layout (c : Config) (position : Position) (construction : Construction) :
    (construction.build c position).padding = (construction.layout c).padding ∧
      (construction.build c position).anchor = (construction.layout c).anchor := by
  cases construction <;> exact ⟨rfl, rfl⟩

/-- The diagnostics of a session and its configuration are kept apart. -/
structure Isolated (s : Session) : Prop where
  /-- A step changes at most the one slot that it may write, and it names that. -/
  slots : ∀ t name, (s.after t).slots name ≠ s.slots name →
    t.written? = some name ∧ name ∈ t.named
  /-- The target of a copy becomes equal to its source. -/
  copied : ∀ slot target d, s.slots slot = some d →
    (s.answer (.copy slot target)).value = .state d ∧
      (s.after (.copy slot target)).slots target = some d
  /-- Only a step on the configuration changes the configuration. -/
  config : ∀ t, (s.after t).config ≠ s.config → ∃ edit, t = .config edit
  /-- It changes no diagnostic. -/
  spared : ∀ edit, (s.after (.config edit)).slots = s.slots
  /-- A diagnostic has the layout that the configuration says when it is made, or that of a new
  configuration. -/
  built : ∀ slot construction position place, Position.Source.read position = .ok place →
    ∃ d, (s.answer (.create slot construction position)).value = .state d ∧
      (s.after (.create slot construction position)).slots slot = some d ∧
      d.padding = (construction.layout s.config).padding ∧
      d.anchor = (construction.layout s.config).anchor
  /-- It is the same diagnostic until its slot is written, whatever becomes of the configuration. -/
  kept : ∀ run name, (∀ t ∈ run, t.written? ≠ some name) →
    (s.play run).2.slots name = s.slots name
  /-- Separate steps can be swapped: their answers and events change places, and nothing else does. -/
  swapped : ∀ (a b : Step), a.Separate b → ∀ earlier later,
    ∃ before x y behind last, before.length = earlier.length ∧
      s.play (earlier ++ a :: b :: later) = (before ++ x :: y :: behind, last) ∧
      s.play (earlier ++ b :: a :: later) = (before ++ y :: x :: behind, last)

/-- Every session keeps its diagnostics and its configuration apart. -/
theorem diagnostics_isolated (s : Session) : s.Isolated where
  slots := by
    intro t name changed
    have written : t.written? = some name := Decidable.byContradiction fun unwritten =>
      changed (slots_step s t name unwritten)
    exact ⟨written, Step.written?_named written⟩
  copied := by
    intro slot target d held
    simp [answer, after, step, onSlot, held, get_put]
  config := by
    intro t changed
    cases t with
    | config edit => exact ⟨edit, rfl⟩
    | _ => exact absurd (config_step s _ rfl) changed
  spared := fun edit => rfl
  built := by
    intro slot construction position place found
    refine ⟨construction.build s.config place, ?_, ?_, built_layout s.config place construction⟩
    · simp [answer, step, found]
    · simp [after, step, found, get_put]
  kept := fun run name unwritten => slots_play unwritten s
  swapped := fun a b separate earlier later => play_swap separate s earlier later

end Session

end QueryCaret
