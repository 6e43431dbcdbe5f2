import QueryCaret.Diagnostic.Binding

/-!
# What becomes of a diagnostic

A diagnostic is used again and again: changed, attached to, reported. A use that fails leaves it as it
was. Beside the diagnostic after a run of uses stands what the run says about it: the first query
offered that is not empty, and the margin set last.

* `query_after`, `padding_after` — what one use does to either;
* `after_fixed` — kind, message, position and anchor stay.
-/

set_option autoImplicit false

namespace QueryCaret

/-- One use of a diagnostic. -/
inductive Use where
  | edit (e : Edit)
  | report
  deriving DecidableEq, Repr

namespace Use

/-- The diagnostic after one use of it. -/
def after (d : Diagnostic) : Use → Diagnostic
  | .edit e =>
    match (e.apply d).value with
    | .ok changed => changed
    | .error _ => d
  | .report => d

/-- The query that a use offers. -/
def offered? : Use → Option Text
  | .edit (.bind _ query) | .edit (.attach query) => some query
  | .edit (.setPadding _ _) | .report => none

/-- The margin that a use sets. -/
def padding? : Use → Option Nat
  | .edit (.setPadding _ n) => some n
  | .edit (.bind _ _) | .edit (.attach _) | .report => none

/-- The first query offered in a run of uses, passing over empty ones. -/
def firstQuery (uses : List Use) : Option Text :=
  (uses.filterMap offered?).find? fun query => query ≠ []

/-- The margin set last in a run of uses. -/
def lastPadding (uses : List Use) : Option Nat := (uses.filterMap padding?).getLast?

/-- A diagnostic takes the first query that has any text. -/
def taken (d : Diagnostic) (query : Text) : Diagnostic :=
  if d.isBound ∨ query = [] then d else { d with query := some query }

theorem after_bind (d : Diagnostic) (access : Access) (query : Text) :
    (Use.edit (.bind access query)).after d = taken d query := by
  simp only [after, Edit.apply, Access.bind_eq, Diagnostic.bind_eq, taken]
  by_cases bound : d.isBound = true
  · simp [bound]
  · by_cases empty : query = [] <;> simp [bound, empty]

theorem after_attach (d : Diagnostic) (query : Text) :
    (Use.edit (.attach query)).after d = taken d query := by
  simp only [after, Edit.apply, Traced.value_map, Diagnostic.attach_eq, taken]
  by_cases bound : d.isBound = true
  · simp [bound]
  · by_cases empty : query = [] <;> simp [bound, empty]

theorem after_setPadding (d : Diagnostic) (access : Access) (n : Nat) :
    (Use.edit (.setPadding access n)).after d = { d with padding := n } := by
  simp [after, Edit.apply, Access.setPadding_eq, Diagnostic.setPadding]

theorem query_taken (d : Diagnostic) (query : Text) :
    (taken d query).query = d.query.or (if query = [] then none else some query) := by
  unfold taken Diagnostic.isBound
  cases h : d.query <;> by_cases empty : query = [] <;> simp [h, empty]

theorem query_after (d : Diagnostic) (u : Use) :
    (u.after d).query = d.query.or (u.offered?.filter fun query => query ≠ []) := by
  cases u with
  | report => simp [after, offered?]
  | edit e =>
    cases e with
    | bind access query =>
      rw [after_bind, query_taken]
      by_cases empty : query = [] <;> simp [offered?, empty, Option.filter]
    | attach query =>
      rw [after_attach, query_taken]
      by_cases empty : query = [] <;> simp [offered?, empty, Option.filter]
    | setPadding access n => simp [after_setPadding, offered?]

theorem padding_after (d : Diagnostic) (u : Use) :
    (u.after d).padding = u.padding?.getD d.padding := by
  have kept (query : Text) : (taken d query).padding = d.padding := by
    unfold taken
    split <;> rfl
  cases u with
  | report => rfl
  | edit e =>
    cases e with
    | bind access query => rw [after_bind, kept]; rfl
    | attach query => rw [after_attach, kept]; rfl
    | setPadding access n => rw [after_setPadding]; rfl

/-- A use changes nothing but the query and the margin. -/
theorem after_fixed (d : Diagnostic) (u : Use) :
    u.after d = { d with query := (u.after d).query, padding := (u.after d).padding } := by
  have kept (query : Text) : taken d query =
      { d with query := (taken d query).query, padding := (taken d query).padding } := by
    unfold taken
    split <;> rfl
  cases u with
  | report => rfl
  | edit e =>
    cases e with
    | bind access query => rw [after_bind]; exact kept query
    | attach query => rw [after_attach]; exact kept query
    | setPadding access n => rw [after_setPadding]

end Use

end QueryCaret
