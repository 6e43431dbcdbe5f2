import QueryCaret.Command.Parser
import QueryCaret.Diagnostic.Binding
import QueryCaret.Input.Source

/-!
# Answering a request

The position is checked first; nothing is read for a request without one. Then the query is looked up,
bound and reported. Reading is left to the caller: `read` runs in a monad of its own, so that the same
definition serves the real file system and one held in memory.

* `answer_invalid` — an impossible position is reported whatever there is to read;
* `answer_unread` — a request whose query stands on the command line, or nowhere, reads nothing.
-/

set_option autoImplicit false

namespace QueryCaret

/-- The argument that stands for standard input. -/
def standardInputMark : Text := ['-']

namespace Request

/-- The source that has to be read for the query, if any. -/
def sourceToRead (r : Request) : Option Source :=
  match r.file? with
  | some path => some (.file path)
  | none => if r.argument? = some standardInputMark then some .standardInput else none

/-- The report once position and query are known. -/
def report (r : Request) (position : Position) (query : Option Text) :
    Traced (Except Fault Text) := do
  let d := r.config.diagnose r.kind position r.message
  match query with
  | none => .ok <$> d.render
  | some text =>
    match ← d.bind text with
    | .ok bound => .ok <$> bound.render
    | .error fault => return .error fault

/-- The report on a query that was read. -/
def reportRead (r : Request) (position : Position) (source : Source)
    (found : Except ReadFault (List UInt8)) : Traced (Except Fault Text) := do
  match source with
  | .file path => Traced.emit (.readingFile path.show)
  | .standardInput => pure ()
  match readText found with
  | .ok text => r.report position (some text)
  | .error fault => return .error fault

/-- The report a request asks for, or the fault that prevents it. -/
def answer {m : Type → Type} [Monad m] (read : Source → m (Except ReadFault (List UInt8)))
    (r : Request) : m (Traced (Except Fault Text)) :=
  match Position.ofRaw r.position with
  | .error fault => pure (pure (.error fault))
  | .ok position =>
    match r.sourceToRead with
    | none => pure (r.report position r.argument?)
    | some source => do
      let found ← read source
      return r.reportRead position source found

variable {m : Type → Type} [Monad m] (read : Source → m (Except ReadFault (List UInt8)))

theorem answer_unread {r : Request} {p : Position} (position : Position.ofRaw r.position = .ok p)
    (unread : r.sourceToRead = none) : r.answer read = pure (r.report p r.argument?) := by
  rw [answer, position]
  simp only [unread]

theorem answer_read {r : Request} {p : Position} {source : Source}
    (position : Position.ofRaw r.position = .ok p) (h : r.sourceToRead = some source) :
    r.answer read = (do return r.reportRead p source (← read source)) := by
  rw [answer, position]
  simp only [h]

end Request

/-- What a run of the program leaves behind. -/
structure Outcome where
  exitCode : Nat
  output : Text
  errors : Text
  deriving DecidableEq, Repr

namespace Outcome

def ofResult : Except Fault Text → Outcome
  | .ok report => ⟨0, report ++ ['\n'], []⟩
  | .error fault => ⟨2, [], "Error: ".toList ++ fault.message ++ ['\n']⟩

def ofUsage (u : Usage) : Outcome :=
  if u.exitCode = 0 then ⟨0, u.notice, []⟩ else ⟨u.exitCode, [], u.notice⟩

end Outcome

/-- A run of the program: what its command line asks for, or the outcome of the request. -/
def runCommandLine {m : Type → Type} [Monad m]
    (read : Source → m (Except ReadFault (List UInt8))) (arguments : List ByteText) :
    m (Except Usage Outcome) :=
  match Request.ofCommandLine arguments with
  | .error usage => pure (.error usage)
  | .ok request => do
    let result ← request.answer read
    return .ok (.ofResult result.value)

end QueryCaret
