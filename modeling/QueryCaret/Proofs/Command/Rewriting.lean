import Mathlib.Data.List.Forall2
import Mathlib.Logic.Relation
import QueryCaret.Proofs.Command.Grammar

/-!
# Rewriting a line

The same request can be written in many ways. The groups of a line may stand in any order; an option may
be spelled in any way that fits its value, and a number as any numeral of it; the query may move behind
the terminator. Each of these rewritings fills in the same draft, and so does any number of them.

* `Filled.perm`, `Filled.respell` — groups in another order, or in other words, fill in the same;
* `Rewrites.makes` — one rewriting keeps the request that a line makes;
* `Rewritten.makes` — and so does any number of rewritings.
-/

set_option autoImplicit false

namespace QueryCaret

/-- Two ways to write the same value of an option. A number may be written as any numeral of it. -/
inductive Parameter.SameValue : Parameter → ByteText → ByteText → Prop
  | verbatim (p : Parameter) (v : ByteText) : SameValue p v v
  | position {v w : Text} {n : Int} (before : Text.IsInteger v n) (after : Text.IsInteger w n) :
      SameValue .position (.ofText v) (.ofText w)
  | padding {v w : Text} {n : Nat} (before : Text.IsNatural v n) (after : Text.IsNatural w n) :
      SameValue .padding (.ofText v) (.ofText w)

/-- The same is read from both. -/
theorem Parameter.SameValue.read_eq {p : Parameter} {v w : ByteText} (same : p.SameValue v w) :
    p.read v = p.read w := by
  cases same with
  | verbatim => rfl
  | @position v w n before after =>
    have numeral : Text.signed? v = Text.signed? w := by
      rw [Text.signed?, Text.signed?, Text.integer?_eq_some_iff.mpr before,
        Text.integer?_eq_some_iff.mpr after]
    simp only [read, Value.number, Value.text_ofText, bind, Except.bind, numeral]
  | @padding v w n before after =>
    have numeral : Text.unsigned? v = Text.unsigned? w := by
      rw [Text.unsigned?, Text.unsigned?, Text.natural?_dropPlus_eq_some_iff.mpr before,
        Text.natural?_dropPlus_eq_some_iff.mpr after]
    simp only [read, Value.number, Value.text_ofText, bind, Except.bind, numeral]

namespace ByteGroup

/-- Two ways to write the same group. -/
inductive Respells : ByteGroup → ByteGroup → Prop
  | option {p : Parameter} {v w : ByteText} (spelling spelling' : Spelling) (same : p.SameValue v w) :
      Respells (.option p spelling v) (.option p spelling' w)
  | execute : Respells .execute .execute
  | query (text : ByteText) : Respells (.query text) (.query text)

theorem respells_refl (g : ByteGroup) : g.Respells g := by
  cases g with
  | option p spelling v => exact .option spelling spelling (.verbatim p v)
  | execute => exact .execute
  | query text => exact .query text

/-- Groups that are respelled give each option the same values. -/
theorem values_of_respells {groups groups' : List ByteGroup}
    (same : List.Forall₂ Respells groups groups') (p : Parameter) :
    List.Forall₂ p.SameValue (groups.filterMap (value? p)) (groups'.filterMap (value? p)) := by
  induction same with
  | nil => exact .nil
  | cons first _ ih =>
    cases first with
    | @option q v w spelling spelling' same =>
      by_cases here : q = p
      · subst here
        simpa [value?] using ⟨same, ih⟩
      · simpa [value?, here] using ih
    | execute | query text => exact ih

theorem count_execute_of_respells {groups groups' : List ByteGroup}
    (same : List.Forall₂ Respells groups groups') :
    groups.count .execute = groups'.count .execute := by
  induction same with
  | nil => rfl
  | cons first _ ih => cases first <;> simpa using ih

theorem queries_of_respells {groups groups' : List ByteGroup}
    (same : List.Forall₂ Respells groups groups') :
    groups.filterMap query? = groups'.filterMap query? := by
  induction same with
  | nil => rfl
  | cons first _ ih =>
    cases first with
    | option spelling spelling' same => exact ih
    | execute => exact ih
    | query text => exact congrArg (text :: ·) ih

end ByteGroup

namespace Draft

/-- A place that takes some values takes them in any order: it takes one at most. -/
theorem fill_perm {α : Type} {read : ByteText → Except Usage α} {values values' : List ByteText}
    {after : Option α} (filled : fill read none values = .ok after) (order : values.Perm values') :
    fill read none values' = .ok after := by
  rw [fill_eq_ok_iff] at filled ⊢
  rcases filled with ⟨rfl, absent⟩ | ⟨v, a, rfl, taken, present⟩
  · exact .inl ⟨order.nil_eq.symm, absent⟩
  · exact .inr ⟨v, a, (List.singleton_perm.mp order).symm, taken, present⟩

theorem fill_sameValue {p : Parameter} {values values' : List ByteText}
    (same : List.Forall₂ p.SameValue values values') (place : Option p.Content) :
    fill p.read place values = fill p.read place values' := by
  induction same generalizing place with
  | nil => rfl
  | cons first _ ih =>
    simp only [fill, List.foldlM_cons, first.read_eq]
    exact congrArg _ (funext ih)

/-- Groups in another order fill in the same. -/
theorem Filled.perm {groups groups' : List ByteGroup} {d : Draft} (filled : Filled groups {} d)
    (order : groups.Perm groups') : Filled groups' {} d where
  options := by
    intro p
    have empty : Draft.get {} p = none := by cases p <;> rfl
    have given := filled.options p
    rw [empty] at given ⊢
    exact fill_perm given (order.filterMap _)
  execute := order.count_eq .execute ▸ filled.execute
  query := fill_perm filled.query (order.filterMap _)

/-- Groups in other words fill in the same. -/
theorem Filled.respell {groups groups' : List ByteGroup} {d after : Draft}
    (filled : Filled groups d after) (same : List.Forall₂ ByteGroup.Respells groups groups') :
    Filled groups' d after where
  options := by
    intro p
    rw [← fill_sameValue (ByteGroup.values_of_respells same p)]
    exact filled.options p
  execute := ByteGroup.count_execute_of_respells same ▸ filled.execute
  query := ByteGroup.queries_of_respells same ▸ filled.query

end Draft

namespace ByteLine

/-- One rewriting of a line. -/
inductive Rewrites : ByteLine → ByteLine → Prop
  /-- The groups stand in another order; the ending stays where it is. -/
  | reorder {groups groups' : List ByteGroup} (ending : Option (Option ByteText))
      (order : groups.Perm groups') : Rewrites ⟨groups, ending⟩ ⟨groups', ending⟩
  /-- Groups are spelled in other ways that fit what they say. -/
  | respell {groups groups' : List ByteGroup} (ending : Option (Option ByteText))
      (same : List.Forall₂ ByteGroup.Respells groups groups') (legible : ∀ g ∈ groups', g.Legible) :
      Rewrites ⟨groups, ending⟩ ⟨groups', ending⟩
  /-- The query moves behind the terminator, which may stand there already. -/
  | queryBehind (before behind : List ByteGroup) (text : ByteText) {ending : Option (Option ByteText)}
      (free : ending.bind id = none) :
      Rewrites ⟨before ++ .query text :: behind, ending⟩ ⟨before ++ behind, some (some text)⟩

/-- One rewriting keeps the request. -/
theorem Rewrites.makes {l l' : ByteLine} (step : l.Rewrites l') {r : Request} (makes : l.Makes r) :
    l'.Makes r := by
  obtain ⟨legible, d, filled, finished⟩ := makes
  cases step with
  | reorder ending order =>
    exact ⟨fun g member => legible g (order.mem_iff.mpr member), d, filled.perm (order.append_right _),
      finished⟩
  | respell ending same fits =>
    refine ⟨fits, d, filled.respell (List.rel_append same ?_), finished⟩
    exact List.forall₂_same.mpr fun g _ => g.respells_refl
  | @queryBehind before behind text ending free =>
    have moved : (said ⟨before ++ .query text :: behind, ending⟩).Perm
        (said ⟨before ++ behind, some (some text)⟩) := by
      simp only [said, free, Option.toList_none, List.map_nil, List.append_nil, List.append_assoc]
      exact (List.perm_append_singleton (.query text) behind).symm.append_left before
    refine ⟨fun g member => legible g ?_, d, filled.perm moved, finished⟩
    rw [List.mem_append] at member ⊢
    exact member.imp_right (List.mem_cons_of_mem _)

/-- A line that rewritings lead to. -/
def Rewritten : ByteLine → ByteLine → Prop := Relation.ReflTransGen Rewrites

/-- However often a line is rewritten, it makes the same request. -/
theorem Rewritten.makes {l l' : ByteLine} (steps : l.Rewritten l') {r : Request}
    (makes : l.Makes r) : l'.Makes r := by
  induction steps with
  | refl => exact makes
  | tail _ step ih => exact step.makes ih

end ByteLine

namespace Request

/-- The order and the spelling of arguments do not matter. Arguments that make a request can be divided
into groups, and however they are divided, the groups may be put in any order, spelled in any way that
fits them, and the query put behind the terminator, as often as one likes: the arguments are accepted
and make the same request. -/
theorem ofArguments_rewritten {tokens : List ByteText} {r : Request}
    (accepted : ofArguments tokens = .ok r) :
    (∃ l : ByteLine, l.tokens = tokens ∧ ∀ g ∈ l.groups, g.Legible) ∧
    ∀ l : ByteLine, l.tokens = tokens → (∀ g ∈ l.groups, g.Legible) →
      ∀ l' : ByteLine, l.Rewritten l' →
        (∀ g ∈ l'.groups, g.Legible) ∧ ofArguments l'.tokens = .ok r := by
  obtain ⟨line, division, makes⟩ := exists_makes_of_ofArguments accepted
  refine ⟨⟨line, division, makes.legible⟩, ?_⟩
  intro l division legible l' rewritten
  rw [← division, ofArguments_tokens_eq_ok_iff legible] at accepted
  have made := rewritten.makes accepted
  exact ⟨made.legible, (ofArguments_tokens_eq_ok_iff made.legible).mpr made⟩

/-- The query is a lone dash and moves behind the terminator, both numbers get zeros, the message that
looks like an option is joined to its letter, and the groups are turned round. -/
theorem ofArguments_rewritten_numerals :
    let position (s : Spelling) (v : String) : ByteGroup := .option .position s (.ofText v.toList)
    let message (s : Spelling) : ByteGroup := .option .message s (.ofText "-x".toList)
    let padding (s : Spelling) (v : String) : ByteGroup := .option .padding s (.ofText v.toList)
    let l : ByteLine := ⟨[position .shortApart "-5", message .shortEquals, padding .longEquals "7",
      .query (.ofText ['-'])], none⟩
    let l' : ByteLine := ⟨[padding .longApart "+007", message .shortJoined,
      position .longEquals "-05"], some (some (.ofText ['-']))⟩
    let r : Request :=
      { position := -5, message := "-x".toList, padding := 7, argument? := some ['-'] }
    ofArguments l.tokens = .ok r ∧ l.Rewritten l' ∧ ofArguments l'.tokens = .ok r := by
  intro position message padding l l' r
  let ending : Option (Option ByteText) := some (some (.ofText ['-']))
  let before : List ByteGroup :=
    [position .shortApart "-5", message .shortEquals, padding .longEquals "7"]
  have accepted : ofArguments l.tokens = .ok r := rfl
  have legible : ∀ g ∈ l.groups, g.Legible := by
    have negative : (Parameter.position).TakesApartBytes (.ofText "-5".toList) :=
      .inr ⟨_, rfl, .inr ⟨rfl, ['5'], rfl, rfl⟩⟩
    have dash : (ByteText.ofText ['-']).StandsApart := .inl rfl
    simpa [l, position, message, padding, ByteGroup.Legible, Spelling.FitsBytes, Parameter.short?]
      using ⟨negative, dash⟩
  have moved : l.Rewrites ⟨before, ending⟩ := .queryBehind before [] (.ofText ['-']) rfl
  have respelled : ByteLine.Rewrites ⟨before, ending⟩ ⟨l'.groups.reverse, ending⟩ := by
    have five : Parameter.SameValue .position (.ofText "-5".toList) (.ofText "-05".toList) :=
      .position (Text.integer?_eq_some_iff.mp rfl) (Text.integer?_eq_some_iff.mp rfl)
    have seven : Parameter.SameValue .padding (.ofText "7".toList) (.ofText "+007".toList) :=
      .padding (Text.natural?_dropPlus_eq_some_iff.mp rfl) (Text.natural?_dropPlus_eq_some_iff.mp rfl)
    refine .respell _ (.cons (.option _ _ five) (.cons (.option _ _ (.verbatim .message _))
      (.cons (.option _ _ seven) .nil))) ?_
    have apart : (Parameter.padding).TakesApartBytes (.ofText "+007".toList) := .inl (.inr (by decide))
    have joined : ByteText.ofText "-x".toList ≠ .ofText [] ∧
        (ByteText.ofText "-x".toList).text.head? ≠ some '=' := by decide
    simpa [l', position, message, padding, ByteGroup.Legible, Spelling.FitsBytes, Parameter.short?]
      using ⟨joined, apart⟩
  have turned : ByteLine.Rewrites ⟨l'.groups.reverse, ending⟩ l' :=
    .reorder _ (List.reverse_perm l'.groups)
  have rewritten : l.Rewritten l' := ((Relation.ReflTransGen.single moved).tail respelled).tail turned
  obtain ⟨-, rewriting⟩ := ofArguments_rewritten accepted
  exact ⟨accepted, rewritten, (rewriting l rfl legible l' rewritten).2⟩

end Request

end QueryCaret
