import QueryCaret.Diagnostic.History

/-!
# The life of a diagnostic

What a run of uses leaves behind depends on two things the run says by itself: the first query offered
that is not empty, and the margin set last. Everything else a diagnostic was made with stays. So what
was offered decides which binding is refused, and steps that bind and steps that set the margin do not
notice each other.

* `after_eq` — one use, in closed form;
* `foldl_after` — a whole run, in closed form, from any diagnostic;
* `bind_refused_iff` — a binding is refused exactly after a query with text was offered;
* `foldl_after_congr` — runs that bind alike and set margins alike end alike.
-/

set_option autoImplicit false

namespace QueryCaret.Use

/-- Whether a use offers a query. -/
def binds (u : Use) : Bool := u.offered?.isSome

/-- Whether a use sets the margin. -/
def setsMargin (u : Use) : Bool := u.padding?.isSome

/-- Whether a query with text has been offered in a run of uses. -/
def OfferedText (uses : List Use) : Prop := ∃ u ∈ uses, ∃ query, u.offered? = some query ∧ query ≠ []

theorem after_eq (d : Diagnostic) (u : Use) :
    u.after d = { d with
      query := d.query.or (u.offered?.filter fun query => query ≠ [])
      padding := u.padding?.getD d.padding } := by
  rw [after_fixed, query_after, padding_after]

theorem firstQuery_cons (u : Use) (later : List Use) :
    firstQuery (u :: later) =
      (u.offered?.filter fun query => query ≠ []).or (firstQuery later) := by
  unfold firstQuery
  cases offered : u.offered? with
  | none => simp [offered]
  | some query =>
    by_cases empty : query = [] <;> simp [offered, empty, Option.filter]

theorem lastPadding_cons (u : Use) (later : List Use) :
    lastPadding (u :: later) = (lastPadding later).or u.padding? := by
  unfold lastPadding
  cases margin : u.padding? with
  | none => simp [margin]
  | some n => simp [margin, List.getLast?_cons, Option.or_some]

/-- The query is the first one with text and the margin the last one, each after what was there. -/
theorem foldl_after (d : Diagnostic) (uses : List Use) :
    uses.foldl Use.after d = { d with
      query := d.query.or (firstQuery uses)
      padding := (lastPadding uses).getD d.padding } := by
  induction uses generalizing d with
  | nil => simp [firstQuery, lastPadding]
  | cons u later ih =>
    rw [List.foldl_cons, ih, after_eq, firstQuery_cons, lastPadding_cons]
    have margins : (lastPadding later).getD (u.padding?.getD d.padding) =
        ((lastPadding later).or u.padding?).getD d.padding := by
      cases lastPadding later <;> rfl
    simp only [Option.or_assoc, margins]

theorem isSome_firstQuery_iff (uses : List Use) :
    (firstQuery uses).isSome = true ↔ OfferedText uses := by
  rw [firstQuery, List.find?_isSome]
  constructor
  · rintro ⟨query, offered, text⟩
    obtain ⟨u, member, offers⟩ := List.mem_filterMap.mp offered
    exact ⟨u, member, query, offers, of_decide_eq_true text⟩
  · rintro ⟨u, member, query, offers, text⟩
    exact ⟨query, List.mem_filterMap.mpr ⟨u, member, offers⟩, decide_eq_true text⟩

/-- A fresh diagnostic is bound exactly after a query with text was offered. -/
theorem isBound_foldl_after {d : Diagnostic} (fresh : d.query = none) (uses : List Use) :
    (uses.foldl Use.after d).isBound = true ↔ OfferedText uses := by
  rw [foldl_after, ← isSome_firstQuery_iff, Diagnostic.isBound, fresh, Option.none_or]

theorem bind_refused_iff (access : Access) (d : Diagnostic) (query : Text) :
    (access.bind d query).value = .error .queryAlreadyBound ↔ d.isBound = true := by
  rw [Access.bind_eq, Diagnostic.bind_eq]
  by_cases bound : d.isBound = true
  · simp [bound]
  · by_cases empty : query = [] <;> simp [bound, empty]

/-- A binding that is not refused does what the use of it does. -/
theorem bind_accepted (access : Access) {d : Diagnostic} (unbound : ¬ d.isBound = true)
    (query : Text) :
    (access.bind d query).value = .ok ((Use.edit (.bind access query)).after d) := by
  cases bound : (access.bind d query).value with
  | ok changed => simp only [after, Edit.apply, bound]
  | error fault =>
    rw [Access.bind_eq, Diagnostic.value_bind_of_unbound (Option.not_isSome_iff_eq_none.mp unbound)]
      at bound
    cases bound

/-- Attaching hands back the diagnostic that the use of it leaves. -/
theorem attachQuery_error {α : Type} (d : Diagnostic) (query : Text) :
    (attachQuery (.error d : Except Diagnostic α) query).value =
      .error ((Use.edit (.attach query)).after d) := by
  rw [after_attach, taken, attachQuery, Traced.value_map, Diagnostic.attach_eq]
  by_cases bound : d.isBound = true
  · simp [bound]
  · by_cases empty : query = [] <;> simp [bound, empty]

theorem after_attach_of_isBound {d : Diagnostic} (bound : d.isBound = true) (query : Text) :
    (Use.edit (.attach query)).after d = d := by
  rw [after_attach, taken, if_pos (Or.inl bound)]

theorem filterMap_offered?_filter (uses : List Use) :
    (uses.filter binds).filterMap offered? = uses.filterMap offered? := by
  rw [List.filterMap_filter]
  congr 1
  funext u
  cases offered : u.offered? <;> simp [binds, offered]

theorem filterMap_padding?_filter (uses : List Use) :
    (uses.filter setsMargin).filterMap padding? = uses.filterMap padding? := by
  rw [List.filterMap_filter]
  congr 1
  funext u
  cases margin : u.padding? <;> simp [setsMargin, margin]

/-- The binding steps of a run and the steps that set its margin decide where it ends. -/
theorem foldl_after_congr (d : Diagnostic) {uses other : List Use}
    (binding : other.filter binds = uses.filter binds)
    (margins : other.filter setsMargin = uses.filter setsMargin) :
    other.foldl Use.after d = uses.foldl Use.after d := by
  have queries : firstQuery other = firstQuery uses := by
    rw [firstQuery, ← filterMap_offered?_filter, binding, filterMap_offered?_filter, firstQuery]
  have padding : lastPadding other = lastPadding uses := by
    rw [lastPadding, ← filterMap_padding?_filter, margins, filterMap_padding?_filter, lastPadding]
  rw [foldl_after, foldl_after, queries, padding]

/-- The history of a fresh diagnostic, over every run of uses. It ends with the first query offered
that has text and the margin set last; kind, message and position are those it was made with, and the
anchor is still the configuration's. A binding after the run is refused exactly when the run offered a
query with text, whatever the new query is; attaching is never refused and replaces no query. Only the
order of the binding steps and the order of the steps that set the margin count. -/
theorem history_of_fresh (c : Config) (kind : Kind) (position : Position) (message : Text)
    (uses : List Use) :
    let fresh := c.diagnose kind position message
    let final := uses.foldl Use.after fresh
    final = {
      kind, message, position
      padding := (lastPadding uses).getD c.padding
      anchor := c.anchor
      query := firstQuery uses } ∧
    (∀ (access : Access) (query : Text),
      (access.bind final query).value = .error .queryAlreadyBound ↔ OfferedText uses) ∧
    (∀ (access : Access) (query : Text), ¬ OfferedText uses →
      (access.bind final query).value = .ok ((Use.edit (.bind access query)).after final)) ∧
    (∀ (α : Type) (query : Text), (attachQuery (.error final : Except Diagnostic α) query).value =
      .error ((Use.edit (.attach query)).after final)) ∧
    (OfferedText uses → ∀ query, (Use.edit (.attach query)).after final = final) ∧
    (∀ other : List Use, other.filter binds = uses.filter binds →
      other.filter setsMargin = uses.filter setsMargin → other.foldl Use.after fresh = final) := by
  intro fresh final
  have unbound : fresh.query = none := rfl
  have bound := isBound_foldl_after unbound uses
  refine ⟨?_, ?_, ?_, ?_, ?_, ?_⟩
  · change uses.foldl Use.after fresh = _
    rw [foldl_after, unbound, Option.none_or]
    rfl
  · intro access query
    exact (bind_refused_iff access final query).trans bound
  · intro access query none
    exact bind_accepted access (fun refused => none (bound.mp refused)) query
  · intro α query
    exact attachQuery_error final query
  · intro offered query
    exact after_attach_of_isBound (bound.mpr offered) query
  · intro other binding margins
    exact foldl_after_congr fresh binding margins

end QueryCaret.Use
