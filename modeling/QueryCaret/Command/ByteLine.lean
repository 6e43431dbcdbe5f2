import QueryCaret.Command.Spelling

/-!
# Command lines of bytes

Arguments are bytes, and the path of a file need not be text. So the grammar of the arguments is said
for bytes as well: bytes are spelled like the text they start with, and what cannot be read as text
follows at the end of the token. A line of text is a line of bytes that are all text.

* `look_cases` — what a token looks like;
* `Line.tokens_bytes`, `Group.legible_bytes_iff` — a line of text is spelled the same as bytes;
* `ByteLine.bytes_text` — a line of bytes is one of text if its tokens are.
-/

set_option autoImplicit false

namespace QueryCaret

namespace ByteText

/-- Whether bytes can stand as a token of their own and be taken for a word. -/
def StandsApart (b : ByteText) : Prop := b = .ofText ['-'] ∨ b.text.head? ≠ some '-'

theorem standsApart_ofText_iff {t : Text} : (ofText t).StandsApart ↔ QueryCaret.StandsApart t := by
  have same : ofText t = ofText ['-'] ↔ t = ['-'] := by simp [ofText]
  exact or_congr_left same

theorem ofText_text {b : ByteText} (whole : b.rest = []) : ofText b.text = b := by
  obtain ⟨text, rest, ended⟩ := b
  obtain rfl : rest = [] := whole
  rfl

theorem ofText_injective : Function.Injective ofText :=
  fun _ _ same => congrArg text same

end ByteText

namespace Token

theorem ofBytes_of_standsApart {b : ByteText} (apart : b.StandsApart) : ofBytes b = .word := by
  rcases apart with rfl | plain
  · rfl
  · obtain ⟨text, rest, ended⟩ := b
    match text, plain with
    | [], _ => rfl
    | c :: later, plain =>
      have other : c ≠ '-' := fun dash => plain (by rw [dash]; rfl)
      simp [ofBytes, other]

/-- A token that is no text where it would have to be: in the name of an option. -/
def Unreadable (b : ByteText) : Prop :=
  b.rest ≠ [] ∧ (ofBytes b = .long none none ∨ ∃ rest, ofBytes b = .short none rest)

/-- What a token looks like: the terminator, a long option with or without a value, a cluster of short
ones, a word, or an option whose name is no text. -/
theorem look_cases (b : ByteText) :
    b = .ofText QueryCaret.terminator ∨
    (∃ name, name ≠ [] ∧ '=' ∉ name ∧ b = .ofText ('-' :: '-' :: name)) ∨
    (∃ (name : Text) (v : ByteText), '=' ∉ name ∧
      b = v.withText ('-' :: '-' :: (name ++ '=' :: v.text))) ∨
    (∃ (letter : Char) (rest : ByteText), letter ≠ '-' ∧
      b = rest.withText ('-' :: letter :: rest.text)) ∨
    b.StandsApart ∨ Unreadable b := by
  obtain ⟨text, rest, ended⟩ := b
  match text with
  | [] => exact .inr (.inr (.inr (.inr (.inl (.inr nofun)))))
  | c :: later =>
    by_cases dash : c = '-'
    · subst dash
      match later with
      | [] =>
        by_cases whole : rest = []
        · subst whole
          exact .inr (.inr (.inr (.inr (.inl (.inl rfl)))))
        · exact .inr (.inr (.inr (.inr (.inr ⟨whole, .inr ⟨_, if_neg whole⟩⟩))))
      | letter :: body =>
        by_cases second : letter = '-'
        · subst second
          by_cases valued : '=' ∈ body
          · obtain ⟨name, value, rfl, plain⟩ := List.eq_append_cons_of_mem valued
            exact .inr (.inr (.inl ⟨name, ⟨value, rest, ended⟩, plain, rfl⟩))
          · by_cases whole : rest = []
            · subst whole
              cases body with
              | nil => exact .inl rfl
              | cons first later => exact .inr (.inl ⟨first :: later, nofun, valued, rfl⟩)
            · refine .inr (.inr (.inr (.inr (.inr ⟨whole, .inl ?_⟩))))
              simp only [ofBytes, whole, and_false, if_false, ofLongBody_of_plain valued]
        · exact .inr (.inr (.inr (.inl ⟨letter, ⟨body, rest, ended⟩, second, rfl⟩)))
    · exact .inr (.inr (.inr (.inr (.inl (.inr fun head => dash (Option.some.inj head))))))

end Token

/-- Whether the value of an option may stand in a token of its own. A position may be negative. -/
def Parameter.TakesApartBytes (p : Parameter) (value : ByteText) : Prop :=
  value.StandsApart ∨ ∃ t, value = .ofText t ∧ p.TakesApart t

theorem Parameter.takesApartBytes_ofText_iff {p : Parameter} {t : Text} :
    p.TakesApartBytes (.ofText t) ↔ p.TakesApart t := by
  constructor
  · rintro (apart | ⟨s, same, takes⟩)
    · exact .inl (ByteText.standsApart_ofText_iff.mp apart)
    · rwa [ByteText.ofText_injective same]
  · exact fun takes => .inr ⟨t, rfl, takes⟩

namespace Spelling

/-- Whether an option with these bytes for its value can be written so. -/
def FitsBytes (p : Parameter) (value : ByteText) : Spelling → Prop
  | .longEquals => True
  | .longApart => p.TakesApartBytes value
  | .shortEquals => p.short?.isSome
  | .shortJoined => p.short?.isSome ∧ value ≠ .ofText [] ∧ value.text.head? ≠ some '='
  | .shortApart => p.short?.isSome ∧ p.TakesApartBytes value

def bytes (p : Parameter) (value : ByteText) : Spelling → List ByteText
  | .longEquals => [value.withText (longName p ++ '=' :: value.text)]
  | .longApart => [.ofText (longName p), value]
  | .shortEquals => [value.withText (shortName p ++ '=' :: value.text)]
  | .shortJoined => [value.withText (shortName p ++ value.text)]
  | .shortApart => [.ofText (shortName p), value]

theorem fitsBytes_ofText_iff {p : Parameter} {t : Text} {s : Spelling} :
    s.FitsBytes p (.ofText t) ↔ s.Fits p t := by
  have empty : ByteText.ofText t ≠ .ofText [] ↔ t ≠ [] := ByteText.ofText_injective.ne_iff
  cases s with
  | longEquals | shortEquals => exact Iff.rfl
  | longApart => exact Parameter.takesApartBytes_ofText_iff
  | shortJoined => exact and_congr_right fun _ => and_congr_left fun _ => empty
  | shortApart => exact and_congr_right fun _ => Parameter.takesApartBytes_ofText_iff

theorem bytes_ofText (p : Parameter) (t : Text) (s : Spelling) :
    s.bytes p (.ofText t) = (s.tokens p t).map .ofText := by
  cases s <;> rfl

end Spelling

inductive ByteGroup where
  | option (p : Parameter) (spelling : Spelling) (value : ByteText)
  | execute
  | query (text : ByteText)
  deriving DecidableEq

namespace ByteGroup

def tokens : ByteGroup → List ByteText
  | .option p spelling value => spelling.bytes p value
  | .execute => [.ofText ('-' :: '-' :: Scan.executeName)]
  | .query text => [text]

/-- Whether a group may be written as it is. -/
def Legible : ByteGroup → Prop
  | .option p spelling value => spelling.FitsBytes p value
  | .execute => True
  | .query text => text.StandsApart

/-- The value that a group gives an option. -/
def value? (p : Parameter) : ByteGroup → Option ByteText
  | .option q _ value => if q = p then some value else none
  | .execute | .query _ => none

def query? : ByteGroup → Option ByteText
  | .query text => some text
  | .option .. | .execute => none

/-- The group with what is text of its value. -/
def text : ByteGroup → Group
  | .option p spelling value => .option p spelling value.text
  | .execute => .execute
  | .query text => .query text.text

theorem length_tokens_pos (g : ByteGroup) : 0 < g.tokens.length := by
  cases g with
  | option p spelling v => cases spelling <;> exact Nat.zero_lt_succ _
  | execute | query text => exact Nat.zero_lt_succ _

end ByteGroup

/-- A group of text, seen as bytes. -/
def Group.bytes : Group → ByteGroup
  | .option p spelling value => .option p spelling (.ofText value)
  | .execute => .execute
  | .query text => .query (.ofText text)

namespace Group

theorem tokens_bytes (g : Group) : g.bytes.tokens = g.tokens.map .ofText := by
  cases g with
  | option p spelling value => exact spelling.bytes_ofText p value
  | execute | query text => rfl

theorem legible_bytes_iff {g : Group} : g.bytes.Legible ↔ g.Legible := by
  cases g with
  | option p spelling value => exact Spelling.fitsBytes_ofText_iff
  | execute => exact Iff.rfl
  | query text => exact ByteText.standsApart_ofText_iff

theorem value?_bytes (p : Parameter) (g : Group) :
    g.bytes.value? p = (g.value? p).map .ofText := by
  cases g with
  | option q spelling value =>
    by_cases here : q = p <;> simp [bytes, ByteGroup.value?, value?, here]
  | execute | query text => rfl

theorem query?_bytes (g : Group) : g.bytes.query? = g.query?.map .ofText := by
  cases g <;> rfl

end Group

/-- A group whose tokens are text is one of text. -/
theorem ByteGroup.bytes_text {g : ByteGroup} (whole : ∀ b ∈ g.tokens, b.rest = []) :
    g.text.bytes = g := by
  cases g with
  | execute => rfl
  | query text =>
    rw [ByteGroup.text, Group.bytes, ByteText.ofText_text (whole text List.mem_cons_self)]
  | option p spelling value =>
    have last : value.rest = [] := by
      cases spelling with
      | longEquals =>
        exact whole (value.withText (Spelling.longName p ++ '=' :: value.text)) List.mem_cons_self
      | shortEquals =>
        exact whole (value.withText (Spelling.shortName p ++ '=' :: value.text)) List.mem_cons_self
      | shortJoined =>
        exact whole (value.withText (Spelling.shortName p ++ value.text)) List.mem_cons_self
      | longApart | shortApart => exact whole value (List.mem_cons_of_mem _ List.mem_cons_self)
    rw [ByteGroup.text, Group.bytes, ByteText.ofText_text last]

/-- The arguments of `render` as bytes, group by group. -/
structure ByteLine where
  groups : List ByteGroup
  /-- A terminator, with the query after it if there is one. -/
  ending : Option (Option ByteText) := none
  deriving DecidableEq

namespace ByteLine

def tokens (l : ByteLine) : List ByteText :=
  l.groups.flatMap ByteGroup.tokens ++
    match l.ending with
    | none => []
    | some none => [.ofText terminator]
    | some (some query) => [.ofText terminator, query]

/-- What a line says, group by group; the query behind the terminator is said like any other. -/
def said (l : ByteLine) : List ByteGroup := l.groups ++ (l.ending.bind id).toList.map .query

theorem tokens_cons (g : ByteGroup) (groups : List ByteGroup) (ending : Option (Option ByteText)) :
    tokens ⟨g :: groups, ending⟩ = g.tokens ++ tokens ⟨groups, ending⟩ := by
  simp only [tokens, List.flatMap_cons, List.append_assoc]

/-- The line with what is text of its values. -/
def text (l : ByteLine) : Line :=
  ⟨l.groups.map ByteGroup.text, l.ending.map (Option.map ByteText.text)⟩

end ByteLine

/-- A line of text, seen as bytes. -/
def Line.bytes (l : Line) : ByteLine :=
  ⟨l.groups.map Group.bytes, l.ending.map (Option.map ByteText.ofText)⟩

theorem Line.tokens_bytes (l : Line) : l.bytes.tokens = l.tokens.map .ofText := by
  obtain ⟨groups, ending⟩ := l
  have front : (groups.map Group.bytes).flatMap ByteGroup.tokens =
      (groups.flatMap Group.tokens).map .ofText := by
    simp only [List.flatMap_map, List.map_flatMap, Group.tokens_bytes]
  simp only [Line.bytes, ByteLine.tokens, tokens, List.map_append, front]
  match ending with
  | none | some none | some (some query) => rfl

theorem Line.legible_bytes_iff {l : Line} :
    (∀ g ∈ l.bytes.groups, g.Legible) ↔ ∀ g ∈ l.groups, g.Legible := by
  simp only [Line.bytes, List.forall_mem_map, Group.legible_bytes_iff]

/-- A line whose tokens are text is one of text. -/
theorem ByteLine.bytes_text {l : ByteLine} (whole : ∀ b ∈ l.tokens, b.rest = []) :
    l.text.bytes = l := by
  obtain ⟨groups, ending⟩ := l
  simp only [tokens, List.forall_mem_append, List.mem_flatMap] at whole
  obtain ⟨front, behind⟩ := whole
  have same : (groups.map ByteGroup.text).map Group.bytes = groups := by
    rw [List.map_map]
    refine (List.map_congr_left fun g member => ?_).trans (List.map_id groups)
    exact ByteGroup.bytes_text fun b said => front b ⟨g, member, said⟩
  have last : (ending.map (Option.map ByteText.text)).map (Option.map ByteText.ofText) = ending := by
    match ending with
    | none | some none => rfl
    | some (some query) =>
      have whole : query.rest = [] := behind query (List.mem_cons_of_mem _ List.mem_cons_self)
      exact congrArg (some <| some ·) (ByteText.ofText_text whole)
  simp only [text, Line.bytes, same, last]

end QueryCaret
