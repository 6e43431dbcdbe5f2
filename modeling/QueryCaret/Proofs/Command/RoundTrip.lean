import QueryCaret.Proofs.Command.Grammar

/-!
# Requests written as command lines

A request is written with every option spelled out and its value attached, the query behind the
terminator. Nothing in a value can then be taken for anything else: an attached value ends with its
token, whatever it looks like, and behind the terminator everything is a query. So the arguments are
those of a legible line, each value of which fills its own place of the draft, and the draft is finished
to the request it was written from.

* `tokens_line`, `legible_line` — the arguments of a request as a line;
* `filled_line` — what the line fills in;
* `commandLine_reads_back` — the command line of a request makes that request, and no other has it.
-/

set_option autoImplicit false

namespace QueryCaret.Request

/-- What a request must be like to be written on a command line: its numbers fit a word, its file has a
name, and its query comes from one place at most. -/
structure Writable (r : Request) : Prop where
  low : -signedLimit ≤ r.position
  high : r.position < signedLimit
  padding : r.padding < unsignedLimit
  named : ∀ path, r.file? = some path → path ≠ .ofText []
  apart : r.file? = none ∨ r.argument? = none

/-- The value that a request gives an option. -/
def value? (r : Request) : Parameter → Option ByteText
  | .position => some (.ofText (Text.signedDecimal r.position))
  | .message => some (.ofText r.message)
  | .padding => some (.ofText (Text.decimal r.padding))
  | .anchor => some (.ofText r.anchor.word)
  | .file => r.file?

/-- The arguments of a request, group by group. -/
def line (r : Request) : ByteLine where
  groups :=
    let option (p : Parameter) : List ByteGroup := (r.value? p).toList.map (.option p .longEquals)
    option .position ++ option .message ++ (if r.execute then [.execute] else []) ++
      option .padding ++ option .anchor ++ option .file
  ending := r.argument?.map fun text => some (.ofText text)

theorem tokens_line (r : Request) : r.line.tokens = r.arguments := by
  obtain ⟨position, message, execute, padding, anchor, file?, argument?⟩ := r
  cases execute <;> cases file? <;> cases argument? <;> rfl

theorem legible_line (r : Request) : ∀ g ∈ r.line.groups, g.Legible := by
  obtain ⟨position, message, execute, padding, anchor, file?, argument?⟩ := r
  cases execute <;> cases file? <;>
    simp [line, value?, ByteGroup.Legible, Spelling.FitsBytes]

theorem values_line (r : Request) (p : Parameter) :
    r.line.said.filterMap (ByteGroup.value? p) = (r.value? p).toList := by
  obtain ⟨position, message, execute, padding, anchor, file?, argument?⟩ := r
  cases p <;> cases execute <;> cases file? <;> cases argument? <;> rfl

/-- The draft that holds everything a request says. -/
def draft (r : Request) : Draft where
  position := some r.position
  message := some r.message
  execute := r.execute
  padding := some r.padding
  anchor := some r.anchor
  file := r.file?
  query := r.argument?

/-- Each value is read as what it was written for. -/
theorem read_value {r : Request} (writable : r.Writable) {p : Parameter} {v : ByteText}
    (given : r.value? p = some v) :
    ∃ content, p.read v = .ok content ∧ r.draft.get p = some content := by
  cases p with
  | position =>
    obtain rfl := Option.some.inj given
    have numeral := Text.signed?_signedDecimal writable.low writable.high
    exact ⟨_, Value.number_ofText_eq_ok_iff.mpr numeral, rfl⟩
  | message =>
    obtain rfl := Option.some.inj given
    exact ⟨_, Value.text_ofText r.message, rfl⟩
  | padding =>
    obtain rfl := Option.some.inj given
    have numeral := Text.unsigned?_decimal writable.padding
    exact ⟨_, Value.number_ofText_eq_ok_iff.mpr numeral, rfl⟩
  | anchor =>
    obtain rfl := Option.some.inj given
    exact ⟨_, Value.anchor_ofText_eq_ok_iff.mpr (Anchor.ofWord?_eq_some_iff.mpr rfl), rfl⟩
  | file => exact ⟨v, if_neg (writable.named v given), given⟩

/-- The line of a request fills in what the request says. -/
theorem filled_line {r : Request} (writable : r.Writable) : Draft.Filled r.line.said {} r.draft where
  options := by
    intro p
    have empty : Draft.get {} p = none := by cases p <;> rfl
    rw [values_line, empty, Draft.fill_eq_ok_iff]
    cases given : r.value? p with
    | none =>
      have absent : r.draft.get p = none := by
        cases p with
        | file => exact given
        | position | message | padding | anchor => cases given
      exact .inl ⟨rfl, absent⟩
    | some v =>
      obtain ⟨content, read, filled⟩ := read_value writable given
      exact .inr ⟨v, content, rfl, read, filled⟩
  execute := by
    obtain ⟨position, message, execute, padding, anchor, file?, argument?⟩ := r
    cases execute <;> cases file? <;> cases argument? <;> rfl
  query := by
    obtain ⟨position, message, execute, padding, anchor, file?, argument?⟩ := r
    cases execute <;> cases file? <;> cases argument? <;> rfl

theorem ofCommandLine_commandLine {r : Request} (writable : r.Writable) :
    ofCommandLine r.commandLine = .ok r := by
  have finished : r.draft.Finished r := ⟨rfl, rfl, rfl, rfl, rfl, rfl, rfl, writable.apart⟩
  have read : ofArguments r.arguments = .ok r := by
    rw [← tokens_line]
    exact (ofArguments_tokens_eq_ok_iff r.legible_line).mpr
      ⟨r.legible_line, r.draft, filled_line writable, finished⟩
  exact read

/-- Every request can be written on a command line and is read back from it unchanged: whatever its
numbers, its message, its file and its query look like. So it asks for the layout and the kind of
failure that were to be asked for, and different requests have different command lines. -/
theorem commandLine_reads_back {r : Request} (writable : r.Writable) :
    (∃ back, ofCommandLine r.commandLine = .ok back ∧ back = r ∧
      back.config = { padding := r.padding, anchor := r.anchor } ∧
      (back.kind = .execution ↔ r.execute = true)) ∧
    ∀ other : Request, other.Writable → other.commandLine = r.commandLine → other = r := by
  have read := ofCommandLine_commandLine writable
  refine ⟨⟨r, read, rfl, rfl, ?_⟩, ?_⟩
  · unfold kind
    cases r.execute <;> decide
  · intro other writableOther same
    have readOther := ofCommandLine_commandLine writableOther
    rw [same, read] at readOther
    exact (Except.ok.inj readOther).symm

/-- The numbers are the greatest and the least that fit, the message starts with an equals sign, and the
query looks like an option. -/
theorem commandLine_reads_back_option_lookalikes :
    let r : Request := {
      position := -9223372036854775808, message := "=-m".toList, execute := true
      padding := 18446744073709551615, anchor := .untrimmed, argument? := some "--file=x".toList }
    r.Writable ∧
      (∃ back, ofCommandLine r.commandLine = .ok back ∧ back = r ∧
        back.config = { padding := r.padding, anchor := r.anchor } ∧
        (back.kind = .execution ↔ r.execute = true)) ∧
      ∀ other : Request, other.Writable → other.commandLine = r.commandLine → other = r := by
  intro r
  have writable : r.Writable := ⟨by decide, by decide, by decide, nofun, .inl rfl⟩
  exact ⟨writable, commandLine_reads_back writable⟩

end QueryCaret.Request
