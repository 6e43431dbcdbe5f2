import QueryCaret.Command.ByteLine

/-!
# Reading a group

A token is read by its look, except that a cluster may be a number which the position waits for, and a
word a value. A scan that waits for no value reads the tokens of a legible group as that group, in
whichever way it is spelled.

* `readAll_name`, `readAll_nameEquals`, `readAll_dash`, `readAll_word`, `readAll_unreadable` — one token
  is read by its look;
* `readAll_value` — a value that may stand apart is taken by the option that waits for it;
* `readAll_group` — the tokens of a legible group are read as the group.
-/

set_option autoImplicit false

namespace QueryCaret

theorem looksNumeric_of_isDigits {digits : Text} (isDigits : Text.IsDigits digits) :
    looksNumeric digits = true := by
  obtain ⟨nonempty, all⟩ := isDigits
  have behind : digits.dropWhile Char.isDigit = [] := by
    have whole : (digits ++ []).dropWhile Char.isDigit = [] := List.dropWhile_append_of_pos all
    rwa [List.append_nil] at whole
  cases digits with
  | nil => exact absurd rfl nonempty
  | cons c later =>
    have first : c.isDigit = true := all c List.mem_cons_self
    simp [looksNumeric, behind, first]

namespace Scan

/-- A scan that does not wait for a value. -/
def Ready (s : Scan) : Prop := ∀ p, s.pending ≠ .expecting p

theorem ready_nothing (d : Draft) : Ready ⟨d, .nothing⟩ := by
  intro p waiting
  cases waiting

theorem ready_given (d : Draft) (p : Parameter) (v : ByteText) : Ready ⟨d, .given p v⟩ := by
  intro p waiting
  cases waiting

theorem ready_query (d : Draft) (v : ByteText) : Ready ⟨d, .query v⟩ := by
  intro p waiting
  cases waiting

theorem ready_or_expecting (s : Scan) : s.Ready ∨ ∃ p, s.pending = .expecting p := by
  obtain ⟨draft, pending⟩ := s
  cases pending with
  | nothing => exact .inl (ready_nothing draft)
  | expecting p => exact .inr ⟨p, rfl⟩
  | given p v => exact .inl (ready_given draft p v)
  | query v => exact .inl (ready_query draft v)

/-- What reading the tokens of a group comes to. -/
def take (s : Scan) : ByteGroup → Except Usage Scan
  | .option p .longEquals v | .option p .shortEquals v | .option p .shortJoined v => s.attached p v
  | .option p .longApart v | .option p .shortApart v => do
    return ⟨← s.settle, .given p v⟩
  | .execute => s.execute
  | .query text => s.word text

theorem takesAsNumber_of_ready {s : Scan} (ready : s.Ready) (token : ByteText) :
    s.takesAsNumber token = false := by
  simp [takesAsNumber, ready .position]

theorem readAll_cons {token : ByteText} (option : Token.ofBytes token ≠ .terminator) (s : Scan)
    (later : List ByteText) :
    s.readAll (token :: later) = s.read token >>= fun s => s.readAll later := by
  rw [readAll, if_neg option]

theorem readAll_terminator (s : Scan) (later : List ByteText) :
    s.readAll (.ofText terminator :: later) = later.foldlM word s := by
  have look : Token.ofBytes (.ofText terminator) = .terminator := rfl
  rw [readAll, if_pos look]

theorem readAll_name {name : Text} (nonempty : name ≠ []) (plain : '=' ∉ name) (s : Scan)
    (later : List ByteText) :
    s.readAll (.ofText ('-' :: '-' :: name) :: later) =
      s.long name none >>= fun s => s.readAll later := by
  have look := Token.ofText_long nonempty plain
  rw [readAll_cons (by rw [look]; nofun), read, look]

theorem readAll_nameEquals {name : Text} (plain : '=' ∉ name) (v : ByteText) (s : Scan)
    (later : List ByteText) :
    s.readAll (v.withText ('-' :: '-' :: (name ++ '=' :: v.text)) :: later) =
      s.long name (some v) >>= fun s => s.readAll later := by
  have look := Token.ofBytes_longEquals v plain
  rw [readAll_cons (by rw [look]; nofun), read, look]

/-- A cluster may be a number that the scan waits for. -/
theorem readAll_dash {letter : Char} (other : letter ≠ '-') (rest : ByteText) (s : Scan)
    (later : List ByteText) :
    s.readAll (rest.withText ('-' :: letter :: rest.text) :: later) =
      (if s.takesAsNumber (rest.withText ('-' :: letter :: rest.text)) then
        .ok { s with pending := .given .position (rest.withText ('-' :: letter :: rest.text)) }
      else s.short letter rest) >>= fun s => s.readAll later := by
  have look := Token.ofBytes_short rest other
  rw [readAll_cons (by rw [look]; nofun), read, look]

theorem readAll_cluster {letter : Char} (other : letter ≠ '-') (rest : ByteText) {s : Scan}
    (ready : s.Ready) (later : List ByteText) :
    s.readAll (rest.withText ('-' :: letter :: rest.text) :: later) =
      s.short letter rest >>= fun s => s.readAll later := by
  rw [readAll_dash other, takesAsNumber_of_ready ready]
  rfl

theorem readAll_word {t : ByteText} (apart : t.StandsApart) {s : Scan} (ready : s.Ready)
    (later : List ByteText) :
    s.readAll (t :: later) = s.word t >>= fun s => s.readAll later := by
  have look := Token.ofBytes_of_standsApart apart
  rw [readAll_cons (by rw [look]; nofun), read, look]
  cases pending : s.pending with
  | expecting p => exact absurd pending (ready p)
  | nothing => rfl
  | given p v => rfl
  | query v => rfl

/-- An option whose name is no text is not known. -/
theorem readAll_unreadable {t : ByteText} (unreadable : Token.Unreadable t) (s : Scan)
    (later : List ByteText) : s.readAll (t :: later) = .error .unknownArgument := by
  obtain ⟨broken, look | ⟨rest, look⟩⟩ := unreadable
  · rw [readAll_cons (by simp [look]), read, look]
    rfl
  · have noNumber : s.takesAsNumber t = false := by simp [takesAsNumber, ByteText.text?, broken]
    rw [readAll_cons (by simp [look]), read, look]
    simp only [noNumber]
    rfl

theorem long_attached (s : Scan) (p : Parameter) (v : ByteText) :
    s.long p.long (some v) = s.attached p v := by
  simp only [long, Parameter.ofLong?_long]

theorem long_expect (s : Scan) (p : Parameter) : s.long p.long none = s.expect p := by
  simp only [long, Parameter.ofLong?_long]

theorem short_attached (s : Scan) {p : Parameter} {letter : Char} (h : p.short? = some letter)
    {rest v : ByteText} (value : attachedToShort rest = some v) :
    s.short letter rest = s.attached p v := by
  simp only [short, Parameter.ofShort?_short h, value]

theorem short_expect (s : Scan) {p : Parameter} {letter : Char} (h : p.short? = some letter) :
    s.short letter (.ofText []) = s.expect p := by
  have nothing : attachedToShort (.ofText []) = none := rfl
  simp only [short, Parameter.ofShort?_short h, nothing]

theorem attachedToShort_equals (v : ByteText) :
    attachedToShort (v.withText ('=' :: v.text)) = some v := rfl

theorem attachedToShort_joined {v : ByteText} (nonempty : v ≠ .ofText [])
    (plain : v.text.head? ≠ some '=') : attachedToShort v = some v := by
  unfold attachedToShort
  split
  · rename_i equals
    exact absurd (by rw [equals]; rfl) plain
  · rw [if_neg nonempty]

/-- A value that may stand apart is taken by the option that waits for it. -/
theorem readAll_value {p : Parameter} {v : ByteText} (apart : p.TakesApartBytes v) (d : Draft)
    (later : List ByteText) :
    Scan.readAll ⟨d, .expecting p⟩ (v :: later) = Scan.readAll ⟨d, .given p v⟩ later := by
  have word {w : ByteText} (plain : w.StandsApart) :
      Scan.readAll ⟨d, .expecting p⟩ (w :: later) = Scan.readAll ⟨d, .given p w⟩ later := by
    have look := Token.ofBytes_of_standsApart plain
    rw [readAll_cons (by rw [look]; nofun), read, look]
    rfl
  rcases apart with plain | ⟨_, rfl, plain | ⟨rfl, digits, rfl, numeral⟩⟩
  · exact word plain
  · exact word (ByteText.standsApart_ofText_iff.mpr plain)
  · have isDigits := Text.isSome_natural?_iff.mp numeral
    obtain ⟨c, rest, rfl, minus, -⟩ := isDigits.head
    have taken : takesAsNumber ⟨d, .expecting .position⟩ (.ofText ('-' :: c :: rest)) = true := by
      simp [takesAsNumber, looksNumeric_of_isDigits isDigits]
    refine (readAll_dash minus (.ofText rest) _ later).trans ?_
    exact congrArg (· >>= fun s : Scan => s.readAll later) (if_pos taken)

/-- The value behind an option is taken by it. -/
theorem expect_bind_readAll {p : Parameter} {v : ByteText} (apart : p.TakesApartBytes v) (s : Scan)
    (later : List ByteText) :
    (s.expect p >>= fun s => s.readAll (v :: later)) =
      (do return ⟨← s.settle, .given p v⟩) >>= fun s : Scan => s.readAll later := by
  rw [expect]
  cases s.settle with
  | error usage => rfl
  | ok d => exact readAll_value apart d later

/-- The tokens of a group are read as the group. -/
theorem readAll_group {s : Scan} (ready : s.Ready) {g : ByteGroup} (legible : g.Legible)
    (later : List ByteText) :
    s.readAll (g.tokens ++ later) = s.take g >>= fun s => s.readAll later := by
  cases g with
  | execute =>
    have nonempty : executeName ≠ [] := by decide
    have plain : '=' ∉ executeName := by decide
    exact readAll_name nonempty plain s later
  | query text => exact readAll_word legible ready later
  | option p spelling v =>
    cases spelling with
    | longEquals =>
      refine (readAll_nameEquals p.equals_notMem_long v s later).trans ?_
      rw [long_attached, take]
    | longApart =>
      refine (readAll_name p.long_ne_nil p.equals_notMem_long s _).trans ?_
      rw [long_expect]
      exact expect_bind_readAll legible s later
    | shortEquals =>
      obtain ⟨letter, short⟩ := Option.isSome_iff_exists.mp legible
      rw [ByteGroup.tokens, Spelling.bytes, Spelling.shortName_eq short]
      refine (readAll_cluster (Parameter.short?_ne_dash short) (v.withText ('=' :: v.text)) ready
        later).trans ?_
      rw [short_attached s short (attachedToShort_equals v), take]
    | shortJoined =>
      obtain ⟨hasLetter, nonempty, plain⟩ := legible
      obtain ⟨letter, short⟩ := Option.isSome_iff_exists.mp hasLetter
      rw [ByteGroup.tokens, Spelling.bytes, Spelling.shortName_eq short]
      refine (readAll_cluster (Parameter.short?_ne_dash short) v ready later).trans ?_
      rw [short_attached s short (attachedToShort_joined nonempty plain), take]
    | shortApart =>
      obtain ⟨hasLetter, apart⟩ := legible
      obtain ⟨letter, short⟩ := Option.isSome_iff_exists.mp hasLetter
      rw [ByteGroup.tokens, Spelling.bytes, Spelling.shortName_eq short]
      refine (readAll_cluster (Parameter.short?_ne_dash short) (.ofText []) ready _).trans ?_
      rw [short_expect s short]
      exact expect_bind_readAll apart s later

end Scan

end QueryCaret
