import QueryCaret.Diagnostic.Basic

/-!
# Binding a query to a diagnostic

A query is bound once. A second one is refused, whatever it is; an empty first one leaves the
diagnostic unbound and is no fault. Callers reach a diagnostic in three ways: directly, through the
class `LateBound` of values that wait for a query, or by handing it over and taking a new one back.
Where a diagnostic is the error of a result, `attachQuery` binds it on the way and keeps an earlier
query instead of failing.

* `bind_eq` — binding, case by case;
* `attach_eq` — attaching never fails and never replaces a query.
-/

set_option autoImplicit false

namespace QueryCaret

namespace Diagnostic

def bind (d : Diagnostic) (query : Text) : Traced (Except Fault Diagnostic) :=
  if d.isBound then pure (.error .queryAlreadyBound)
  else if query = [] then pure (.ok d)
  else do
    Traced.emit (.boundQuery d.kind d.position query.length)
    return .ok { d with query := some query }

def setPadding (d : Diagnostic) (n : Nat) : Diagnostic := { d with padding := n }

/-- Takes a diagnostic and hands back the bound one, or the fault in its place. -/
def withQuery (d : Diagnostic) (query : Text) : Traced (Except Fault Diagnostic) := do
  match ← d.bind query with
  | .ok bound => return .ok bound
  | .error fault => return .error fault

/-- Takes a diagnostic and hands back one with another margin. -/
def withPadding (d : Diagnostic) (n : Nat) : Diagnostic := { d with padding := n }

/-- Binds a query unless an earlier one has to be kept. -/
def attach (d : Diagnostic) (query : Text) : Traced Diagnostic := do
  match ← d.bind query with
  | .ok bound => return bound
  | .error fault =>
    Traced.emit (.keptQuery fault d.kind)
    return d

theorem bind_eq (d : Diagnostic) (query : Text) :
    d.bind query =
      if d.isBound then ⟨.error .queryAlreadyBound, []⟩
      else if query = [] then ⟨.ok d, []⟩
      else ⟨.ok { d with query := some query }, [.boundQuery d.kind d.position query.length]⟩ := by
  unfold bind
  split
  · rfl
  · split <;> rfl

/-- An unbound diagnostic takes any query that has text. -/
theorem value_bind_of_unbound {d : Diagnostic} (unbound : d.query = none) (query : Text) :
    (d.bind query).value = .ok { d with query := (some query).filter fun text => text ≠ [] } := by
  have free : d.isBound = false := by rw [isBound, unbound, Option.isSome_none]
  have same : { d with query := none } = d := by rw [← unbound]
  rw [bind_eq, free, if_neg Bool.false_ne_true]
  by_cases empty : query = []
  · rw [if_pos empty, empty]
    exact congrArg Except.ok same.symm
  · simp [empty, Option.filter]

theorem withQuery_eq_bind (d : Diagnostic) (query : Text) : d.withQuery query = d.bind query := by
  rw [withQuery, bind_eq]
  split
  · rfl
  · split <;> rfl

theorem attach_eq (d : Diagnostic) (query : Text) :
    d.attach query =
      if d.isBound then ⟨d, [.keptQuery .queryAlreadyBound d.kind]⟩
      else if query = [] then ⟨d, []⟩
      else ⟨{ d with query := some query }, [.boundQuery d.kind d.position query.length]⟩ := by
  rw [attach, bind_eq]
  split
  · rfl
  · split <;> rfl

end Diagnostic

/-- Values that wait for the text of their query. -/
class LateBound (ε : Type) where
  bindQuery : ε → Text → Traced (Except Fault ε)
  setPadding : ε → Nat → ε

instance : LateBound Diagnostic where
  bindQuery := Diagnostic.bind
  setPadding := Diagnostic.setPadding

/-- Attaches a query to the diagnostic of a failed result; a success passes through. -/
def attachQuery {α : Type} (result : Except Diagnostic α) (query : Text) :
    Traced (Except Diagnostic α) :=
  match result with
  | .ok a => pure (.ok a)
  | .error d => .error <$> d.attach query

/-- How a caller reaches a diagnostic. -/
inductive Access where
  | direct | lateBound | handedOver
  deriving DecidableEq, Repr

namespace Access

def bind : Access → Diagnostic → Text → Traced (Except Fault Diagnostic)
  | .direct => Diagnostic.bind
  | .lateBound => LateBound.bindQuery
  | .handedOver => Diagnostic.withQuery

def setPadding : Access → Diagnostic → Nat → Diagnostic
  | .direct => Diagnostic.setPadding
  | .lateBound => LateBound.setPadding
  | .handedOver => Diagnostic.withPadding

theorem bind_eq (a : Access) : a.bind = Diagnostic.bind := by
  cases a with
  | direct => rfl
  | lateBound => rfl
  | handedOver =>
    funext d query
    exact d.withQuery_eq_bind query

theorem setPadding_eq (a : Access) : a.setPadding = Diagnostic.setPadding := by
  cases a <;> rfl

end Access

/-- A change to a diagnostic. -/
inductive Edit where
  | bind (access : Access) (query : Text)
  | attach (query : Text)
  | setPadding (access : Access) (n : Nat)
  deriving DecidableEq, Repr

/-- The changed diagnostic, or why it could not be changed. -/
def Edit.apply (d : Diagnostic) : Edit → Traced (Except Fault Diagnostic)
  | .bind access query => access.bind d query
  | .attach query => .ok <$> d.attach query
  | .setPadding access n => pure (.ok (access.setPadding d n))

end QueryCaret
