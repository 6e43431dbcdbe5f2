import QueryCaret.Input.Source

/-!
# Directories in memory

What a command reads from where there is no file system: a working directory given as a list of paths
with what stands there, and the bytes on standard input. A path is followed component by component: an
empty component and `.` stay, `..` goes up, a name goes down, and there is no way on from a file. Above
the working directory nothing has a name.

* `components_append` — a path has the components before any of its slashes and those behind it;
* `mem_entries_of_read` — what is read is the file of an entry, wherever the path leads;
* `read_detour` — a component that stays changes nothing about what is read.
-/

set_option autoImplicit false

namespace QueryCaret

/-- A component of a path. -/
abbrev FileName := List UInt8

/-- The byte that separates the components of a path. -/
def slash : UInt8 := 0x2F

/-- The component that stays. -/
def thisDirectory : FileName := [0x2E]

/-- The component that goes up. -/
def parentDirectory : FileName := [0x2E, 0x2E]

/-- The components of a path: the runs between its slashes, empty ones included. -/
def components : List UInt8 → List FileName
  | [] => [[]]
  | b :: rest =>
    if b = slash then [] :: components rest
    else match components rest with
      | [] => [[b]]
      | name :: later => (b :: name) :: later

theorem components_ne_nil (path : List UInt8) : components path ≠ [] := by
  cases path with
  | nil => simp [components]
  | cons b rest =>
    rw [components]
    split
    · simp
    · split <;> simp

/-- A slash ends a component, whatever stands on either side of it. -/
theorem components_append (front later : List UInt8) :
    components (front ++ slash :: later) = components front ++ components later := by
  induction front with
  | nil => rfl
  | cons b rest ih =>
    rw [List.cons_append, components, components, ih]
    split
    · rfl
    · cases shape : components rest with
      | nil => exact absurd shape (components_ne_nil rest)
      | cons name more => rfl

/-- What stands at a path. -/
inductive Entry where
  | file (bytes : List UInt8)
  | directory
  deriving DecidableEq, Repr

/-- The entries of a working directory, by the components of their paths. -/
structure Directory where
  entries : List (List FileName × Entry) := []

namespace Directory

/-- Where following a path has led. -/
inductive Place where
  | directory (path : List FileName)
  | file (bytes : List UInt8)
  /-- Above the working directory. -/
  | outside

/-- The directory whose entries have the given paths. -/
def ofPaths (entries : List (List UInt8 × Entry)) : Directory :=
  ⟨entries.map fun e => (components e.1, e.2)⟩

/-- What stands at a path in the directory; a path that leads on to an entry is a directory. -/
def at? (d : Directory) (path : List FileName) : Option Entry :=
  match d.entries.lookup path with
  | some entry => some entry
  | none => if d.entries.any (fun e => path.isPrefixOf e.1) then some .directory else none

/-- Follows one component. -/
def enter (d : Directory) (place : Place) (name : FileName) : Except ReadFault Place :=
  match place with
  | .file _ => .error .notDirectory
  | .outside =>
    if name = [] ∨ name = thisDirectory ∨ name = parentDirectory then .ok .outside
    else .error .missing
  | .directory path =>
    if name = [] ∨ name = thisDirectory then .ok (.directory path)
    else if name = parentDirectory then
      .ok (if path = [] then .outside else .directory path.dropLast)
    else match d.at? (path ++ [name]) with
      | none => .error .missing
      | some .directory => .ok (.directory (path ++ [name]))
      | some (.file bytes) => .ok (.file bytes)

/-- Where a path starts. -/
def start (path : List UInt8) : Place :=
  if path.head? = some slash then .outside else .directory []

/-- What is read at a place. -/
def Place.contents : Place → Except ReadFault (List UInt8)
  | .file bytes => .ok bytes
  | .directory _ | .outside => .error .isDirectory

/-- Reads the file at a path. -/
def read (d : Directory) (path : List UInt8) : Except ReadFault (List UInt8) := do
  (← (components path).foldlM d.enter (start path)).contents

/-- A file that has been reached is the file of an entry. -/
def Place.Listed (d : Directory) : Place → Prop
  | .file bytes => ∃ name, (name, Entry.file bytes) ∈ d.entries
  | .directory _ | .outside => True

theorem mem_entries_of_at? {d : Directory} {path : List FileName} {bytes : List UInt8}
    (found : d.at? path = some (.file bytes)) : (path, Entry.file bytes) ∈ d.entries := by
  unfold at? at found
  cases listed : d.entries.lookup path with
  | some entry =>
    simp only [listed, Option.some.injEq] at found
    obtain ⟨before, behind, split, -⟩ := List.lookup_eq_some_iff.mp listed
    rw [split, found]
    exact List.mem_append_right before List.mem_cons_self
  | none => simp [listed] at found

theorem listed_start (d : Directory) (path : List UInt8) : (start path).Listed d := by
  unfold start
  split <;> trivial

theorem listed_of_enter {d : Directory} {place next : Place} {name : FileName}
    (entered : d.enter place name = .ok next) : next.Listed d := by
  cases place with
  | file bytes => cases entered
  | outside =>
    rw [enter] at entered
    split at entered
    · cases entered
      trivial
    · cases entered
  | directory path =>
    rw [enter] at entered
    split at entered
    · cases entered
      trivial
    · split at entered
      · cases entered
        split <;> trivial
      · split at entered
        · cases entered
        · cases entered
          trivial
        -- Only here a file is reached, and only by a name.
        · rename_i found
          cases entered
          exact ⟨path ++ [name], mem_entries_of_at? found⟩

theorem listed_of_foldlM {d : Directory} {names : List FileName} {place last : Place}
    (listed : place.Listed d) (followed : names.foldlM d.enter place = .ok last) : last.Listed d := by
  induction names generalizing place with
  | nil =>
    cases followed
    exact listed
  | cons name later ih =>
    rw [List.foldlM_cons] at followed
    obtain ⟨next, entered, followed⟩ := bind_eq_ok_iff.mp followed
    exact ih (listed_of_enter entered) followed

theorem mem_entries_of_read {d : Directory} {path bytes : List UInt8}
    (found : d.read path = .ok bytes) : ∃ name, (name, Entry.file bytes) ∈ d.entries := by
  obtain ⟨place, followed, found⟩ := bind_eq_ok_iff.mp found
  have listed : place.Listed d := listed_of_foldlM (listed_start d path) followed
  cases place with
  | file other =>
    cases found
    exact listed
  | directory _ => cases found
  | outside => cases found

/-- A component that stays can be left out where the path goes on: from a file nothing leads on, and
elsewhere it changes nothing. -/
theorem foldlM_enter_of_stays (d : Directory) (place : Place) {stay : FileName}
    (stays : stay = [] ∨ stay = thisDirectory) (later : List UInt8) :
    (stay :: components later).foldlM d.enter place = (components later).foldlM d.enter place := by
  rw [List.foldlM_cons]
  cases place with
  | file bytes =>
    cases shape : components later with
    | nil => exact absurd shape (components_ne_nil later)
    | cons name more => rfl
  | outside =>
    have known : stay = [] ∨ stay = thisDirectory ∨ stay = parentDirectory := by
      rw [← or_assoc]
      exact Or.inl stays
    rw [enter, if_pos known]
    rfl
  | directory path =>
    rw [enter, if_pos stays]
    rfl

theorem components_of_stays {stay : FileName} (stays : stay = [] ∨ stay = thisDirectory) :
    components stay = [stay] := by
  rcases stays with rfl | rfl <;> rfl

/-- A path may stay where it is after any of its slashes; the same is read, or the same is refused. -/
theorem read_detour (d : Directory) {stay : FileName} (stays : stay = [] ∨ stay = thisDirectory)
    (front later : List UInt8) :
    d.read (front ++ slash :: (stay ++ slash :: later)) = d.read (front ++ slash :: later) := by
  have starts (behind other : List UInt8) :
      start (front ++ slash :: behind) = start (front ++ slash :: other) := by
    cases front <;> rfl
  rw [read, read, components_append, components_append, components_append, components_of_stays stays,
    List.foldlM_append, List.foldlM_append, List.singleton_append, starts _ later]
  simp only [foldlM_enter_of_stays d _ stays]

end Directory

/-- Everything a command can read from. -/
structure Surroundings where
  directory : Directory := {}
  standardInput : List UInt8 := []

def Surroundings.read (s : Surroundings) : Source → Except ReadFault (List UInt8)
  | .file path => s.directory.read path.toBytes
  | .standardInput => .ok s.standardInput

end QueryCaret
