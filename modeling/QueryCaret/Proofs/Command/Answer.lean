import QueryCaret.Command.Report
import QueryCaret.Input.Directory

/-!
# What a request comes to

A request is answered from its fields and from what its source holds, and from nothing else. It is
looked at in one order: the position, then the source, and after that nothing can go wrong. Where a
query is found, the answer is the report of the diagnostic that a caller of the library would have made
and bound by hand; so it does not matter which way a text came.

* `value_report` — a request with position and query known is that diagnostic's report;
* `value_resultOn` — the answer is the report on the query looked up, or why there is none;
* `lookUp_eq_ok_iff`, `lookUp_eq_error_iff` — what is looked up, and when that fails;
* `told_of_file` — the file is told as it was named, before anything else;
* `report_of_file`, `value_of_detour` — in a directory, what a report on a file shows, and that how its
  path is spelled does not matter.
-/

set_option autoImplicit false

namespace QueryCaret.Request

/-- Whether a source is the one to read for a request: the file, if there is one, even one named `-`;
else standard input, if the query is exactly `-`. -/
def Selects (r : Request) (source : Source) : Prop :=
  (∃ path, r.file? = some path ∧ source = .file path) ∨
    r.file? = none ∧ r.argument? = some standardInputMark ∧ source = .standardInput

/-- The query that a request comes to: the text its source holds, or what stands on the command line
if there is no source to read. -/
def Resolves (r : Request) (content : Source → Except ReadFault (List UInt8))
    (query : Option Text) : Prop :=
  (∃ source text, r.Selects source ∧ content source = .ok (Text.encode text) ∧ query = some text) ∨
    (∀ source, ¬ r.Selects source) ∧ query = r.argument?

/-- The diagnostic that a request describes, bound to its query if that has any text. -/
def diagnostic (r : Request) (position : Position) (query : Option Text) : Diagnostic where
  kind := r.kind
  message := r.message
  position := position
  padding := r.padding
  anchor := r.anchor
  query := query.filter fun text => text ≠ []

/-- The answer where files and standard input hold what `content` says. -/
def resultOn (r : Request) (content : Source → Except ReadFault (List UInt8)) :
    Traced (Except Fault Text) :=
  r.answer (m := Id) content

/-- The query that is found, or why it is not. -/
def lookUp (r : Request) (content : Source → Except ReadFault (List UInt8)) :
    Except Fault (Option Text) :=
  match r.sourceToRead with
  | none => .ok r.argument?
  | some source => (readText (content source)).map some

theorem sourceToRead_eq_some_iff (r : Request) (source : Source) :
    r.sourceToRead = some source ↔ r.Selects source := by
  unfold sourceToRead Selects
  cases file : r.file? with
  | some path => simp [eq_comm]
  | none =>
    by_cases mark : r.argument? = some standardInputMark <;> simp [mark, eq_comm]

theorem sourceToRead_eq_none_iff (r : Request) :
    r.sourceToRead = none ↔ ∀ source, ¬ r.Selects source := by
  rw [Option.eq_none_iff_forall_ne_some]
  exact forall_congr' fun source => not_congr (sourceToRead_eq_some_iff r source)

theorem value_report (r : Request) (position : Position) (query : Option Text) :
    (r.report position query).value = .ok (r.diagnostic position query).render.value := by
  let fresh := r.config.diagnose r.kind position r.message
  cases query with
  | none => rfl
  | some text =>
    have bound : (fresh.bind text).value = .ok (r.diagnostic position (some text)) :=
      Diagnostic.value_bind_of_unbound rfl text
    change ((fresh.bind text >>= _).value : Except Fault Text) = _
    rw [Traced.value_bind, bound]
    rfl

theorem value_reportRead (r : Request) (position : Position) (source : Source)
    (found : Except ReadFault (List UInt8)) :
    (r.reportRead position source found).value =
      (readText found).map fun text => (r.diagnostic position (some text)).render.value := by
  cases read : readText found with
  | error fault => cases source <;> simp [reportRead, read, Except.map]
  | ok text => cases source <;> simp [reportRead, read, value_report, Except.map]

/-- The position, then the query, then the report, which cannot fail. -/
theorem value_resultOn (r : Request) (content : Source → Except ReadFault (List UInt8)) :
    (r.resultOn content).value = (do
      let position ← Position.ofRaw r.position
      let query ← r.lookUp content
      return (r.diagnostic position query).render.value) := by
  cases placed : Position.ofRaw r.position with
  | error fault =>
    rw [resultOn, answer, placed]
    rfl
  | ok position =>
    cases source : r.sourceToRead with
    | none =>
      have unread := congrArg Traced.value (answer_unread (m := Id) content placed source)
      have given : r.lookUp content = .ok r.argument? := by rw [lookUp, source]
      rw [given]
      exact unread.trans (value_report r position r.argument?)
    | some s =>
      have read := congrArg Traced.value (answer_read (m := Id) content placed source)
      have found : r.lookUp content = (readText (content s)).map some := by rw [lookUp, source]
      rw [found]
      refine read.trans ((value_reportRead r position s (content s)).trans ?_)
      cases readText (content s) <;> rfl

theorem lookUp_eq_ok_iff (r : Request) (content : Source → Except ReadFault (List UInt8))
    (query : Option Text) : r.lookUp content = .ok query ↔ r.Resolves content query := by
  unfold Resolves
  cases source : r.sourceToRead with
  | none =>
    have unread := (sourceToRead_eq_none_iff r).mp source
    simp only [lookUp, source, Except.ok.injEq]
    constructor
    · rintro rfl
      exact Or.inr ⟨unread, rfl⟩
    · rintro (⟨s, text, selected, -⟩ | ⟨-, rfl⟩)
      · exact absurd selected (unread s)
      · rfl
  | some s =>
    have selected := (sourceToRead_eq_some_iff r s).mp source
    simp only [lookUp, source]
    constructor
    · intro found
      cases read : readText (content s) with
      | error fault => rw [read] at found; cases found
      | ok text =>
        rw [read] at found
        cases found
        exact Or.inl ⟨s, text, selected, readText_eq_ok_iff.mp read, rfl⟩
    · rintro (⟨other, text, also, found, rfl⟩ | ⟨unread, -⟩)
      · have same := (sourceToRead_eq_some_iff r other).mpr also
        rw [source, Option.some.injEq] at same
        subst same
        rw [readText_eq_ok_iff.mpr found]
        rfl
      · exact absurd selected (unread s)

/-- The file to read is told as it was named, before anything else and whatever it holds. -/
theorem told_of_file {r : Request} (content : Source → Except ReadFault (List UInt8)) {path : Text}
    (high : -1 ≤ r.position) (asked : r.file? = some (.ofText path)) :
    (r.resultOn content).events.head? = some (.readingFile path) := by
  obtain ⟨position, placed⟩ := Position.exists_ofRaw high
  have selected : r.sourceToRead = some (.file (.ofText path)) := by rw [sourceToRead, asked]
  have read : r.resultOn content = r.reportRead position (.file (.ofText path)) _ :=
    answer_read (m := Id) content placed selected
  rw [read, reportRead, Traced.events_bind, Traced.events_emit, ByteText.show_ofText]
  rfl

/-- A report on a file shows the text of a file that stands in the directory, whatever the path. -/
theorem report_of_file {r : Request} {s : Surroundings} {path : ByteText} {report : Text}
    (asked : r.file? = some path) (reported : (r.resultOn s.read).value = .ok report) :
    ∃ name text position, (name, Entry.file (Text.encode text)) ∈ s.directory.entries ∧
      Position.ofRaw r.position = .ok position ∧
      report = (r.diagnostic position (some text)).render.value := by
  rw [value_resultOn] at reported
  obtain ⟨position, placed, reported⟩ := bind_eq_ok_iff.mp reported
  obtain ⟨query, found, reported⟩ := bind_eq_ok_iff.mp reported
  cases reported
  have named : r.Selects (.file path) := Or.inl ⟨path, asked, rfl⟩
  rcases (lookUp_eq_ok_iff r s.read query).mp found with
    ⟨source, text, selected, content, rfl⟩ | ⟨nowhere, -⟩
  · have same : r.sourceToRead = some source := (sourceToRead_eq_some_iff r source).mpr selected
    rw [(sourceToRead_eq_some_iff r (.file path)).mpr named, Option.some.injEq] at same
    subst same
    obtain ⟨name, listed⟩ := Directory.mem_entries_of_read content
    exact ⟨name, text, position, listed, placed, rfl⟩
  · exact absurd named (nowhere _)

/-- Two spellings of a path that differ by a component that stays come to the same. -/
theorem value_of_detour (r : Request) (s : Surroundings) {stay : FileName}
    (stays : stay = [] ∨ stay = thisDirectory) {path detour : ByteText} {front later : List UInt8}
    (straight : path.toBytes = front ++ slash :: later)
    (around : detour.toBytes = front ++ slash :: (stay ++ slash :: later)) :
    ({ r with file? := some detour }.resultOn s.read).value =
      ({ r with file? := some path }.resultOn s.read).value := by
  have same : s.read (.file detour) = s.read (.file path) := by
    rw [Surroundings.read, Surroundings.read, around, straight, Directory.read_detour _ stays]
  rw [value_resultOn, value_resultOn]
  simp only [lookUp, sourceToRead, same]
  rfl

end QueryCaret.Request
