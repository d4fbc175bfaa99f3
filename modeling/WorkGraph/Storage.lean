import WorkGraph.Fault
import WorkGraph.Json.Reader
import WorkGraph.Text.Alphanumeric
import WorkGraph.Text.Blank
import WorkGraph.Text.LineEnd
import WorkGraph.Text.Pieces

/-!
# The storage directory

All that outlives a process is a directory of files, each a document. A file that the engine wrote is kept as the value
that was written; one that was put there from outside is a text, read when it is needed. Identifiers become file names
in one of two ways: records use `safeName`, which has no separators and is not injective; workflows use their id as it
stands, resolved as a path (`Location.ofWorkflow`).
-/

namespace WorkGraph

/-- What a file holds. -/
inductive Document where
  | value (v : Value)
  | text (source : String)

namespace Document

/-- The value of a text. -/
def readText (source : String) : Except Fault Value :=
  match Json.read source with
  | .ok v => .ok v
  | .error e => .error (.unreadable (e.message source.toList))

/-- The value that a file holds. Every end of a line counts as a line feed. -/
def read : Document → Except Fault Value
  | value v => .ok v
  | text source => readText (Text.lineFed source)

/-- The value that a file holds, or the given one if there is nothing but blanks in it. -/
def readOr (default : Value) : Document → Except Fault Value
  | value v => .ok v
  | text source => if Text.isBlankText source then .ok default else readText (Text.lineFed source)

@[simp] theorem read_value (v : Value) : read (value v) = .ok v := rfl

@[simp] theorem readOr_value (default v : Value) : readOr default (value v) = .ok v := rfl

end Document

/-! ## Names -/

/-- The directories that hold the records. -/
inductive Folder where
  | executions
  | nodeLogs
  | mappings
  | claims
  | workflows
  deriving DecidableEq, Repr

def Folder.name : Folder → String
  | executions => "executions"
  | nodeLogs => "node_logs"
  | mappings => "button_mappings"
  | claims => "claims"
  | workflows => "workflows"

def Folder.all : List Folder := [executions, nodeLogs, mappings, claims, workflows]

/-- Whether a character of an identifier may stand in a file name. -/
def isSafe (c : Char) : Bool :=
  Text.isAlphanumeric c || c == '-' || c == '_' || c == '.' || c == '='

/-- The file name of an identifier: what may not stand in it becomes an underscore. -/
def safeName (identifier : String) : String :=
  String.ofList (identifier.toList.map fun c => if isSafe c then c else '_')

/-- The most bytes of a file name. -/
def nameLimit : Nat := 255

/-- A place for a file: a directory and a name, or the reason why there is none. -/
structure Location where
  /-- The path from the storage directory, which names the file. -/
  path : String
  /-- The name within its directory. -/
  name : String
  /-- Whether the directory of the file is there. -/
  reachable : Bool
  deriving DecidableEq, Repr

namespace Location

/-- The file of a record. -/
def ofRecord (folder : Folder) (identifier extension : String) : Location :=
  let name := safeName identifier ++ extension
  ⟨folder.name ++ "/" ++ name, name, true⟩

/-- A directory reached from the storage directory: so many levels above it, and then down. -/
structure Directory where
  above : Nat
  below : List String
  deriving DecidableEq, Repr

namespace Directory

/-- Whether a directory is there. Of those above the storage directory all are. -/
def isPresent (d : Directory) : Bool :=
  match d.below with
  | [] => true
  | [name] => d.above == 0 && Folder.all.any (·.name == name)
  | _ => false

/-- The directory that a segment of a path leads to. -/
def enter (d : Directory) (segment : String) : Directory :=
  if segment == ".." then
    if d.below.isEmpty then ⟨d.above + 1, []⟩ else ⟨d.above, d.below.dropLast⟩
  else ⟨d.above, d.below ++ [segment]⟩

/-- Enters segments one after the other, as long as each directory on the way is there. -/
def follow (d : Directory) : List String → Directory × Bool
  | [] => (d, d.isPresent)
  | segment :: rest => if d.isPresent then (d.enter segment).follow rest else (d, false)

/-- A file of a directory. -/
def file (d : Directory) (name : String) : String :=
  String.intercalate "/" (List.replicate d.above ".." ++ d.below ++ [name])

end Directory

/-- The segments of a path; empty ones and single points lead nowhere. -/
def segments (path : String) : List String :=
  ((Text.pieces '/' path.toList).map String.ofList).filter fun s => s != "" && s != "."

/-- The file at a path from a directory. A path that starts with a slash leaves the storage altogether. -/
def ofPath (start : Directory) (path : String) : Location :=
  let parts := segments path
  let name := parts.getLast?.getD ""
  if path.toList.head? == some '/' then ⟨"/" ++ String.intercalate "/" parts, name, parts.length == 1⟩
  else
    let (directory, present) := start.follow parts.dropLast
    ⟨directory.file name, name, present⟩

/-- The file of a workflow, whose id is taken as a path. -/
def ofWorkflow (id : String) : Location :=
  ofPath ⟨0, [Folder.workflows.name]⟩ (id ++ ".json")

end Location

/-! ## Files -/

structure Storage where
  /-- What the directory is called in messages. -/
  root : String
  files : Entries Document

namespace Storage

/-- A directory without files. -/
def empty (root : String) : Storage := ⟨root, []⟩

/-- The file at a place, if there is one. -/
def find? (s : Storage) (place : Location) : Option Document :=
  s.files.get? place.path

/-- Why no file can be written at a place, if so. -/
def obstacle? (s : Storage) (place : Location) : Option Fault :=
  let shown := Text.quoted (s.root ++ "/" ++ place.path)
  if place.path.toList.contains (Char.ofNat 0) then some (.unconvertible (.stated "embedded null byte"))
  else if !place.reachable then some (.storage ("[Errno 2] No such file or directory: " ++ shown))
  else if nameLimit < place.name.utf8ByteSize then some (.storage ("[Errno 36] File name too long: " ++ shown))
  else none

/-- The storage with a file written. -/
def write (s : Storage) (place : Location) (v : Value) : Except Fault Storage :=
  match s.obstacle? place with
  | some fault => .error fault
  | none => .ok { s with files := s.files.set place.path (.value v) }

/-- The storage without a file. -/
def remove (s : Storage) (place : Location) : Storage :=
  { s with files := s.files.erase place.path }

/-- The names of the files in a directory that start and end as given, in ascending order. -/
def names (s : Storage) (folder : Folder) (start finish : String) : List String :=
  let lead := folder.name ++ "/"
  let inside := (s.files.keys.filter fun path => lead.toList.isPrefixOf path.toList).map fun path =>
    String.ofList (path.toList.drop lead.length)
  (inside.filter fun name => !name.toList.contains '/' && start.toList.isPrefixOf name.toList &&
    finish.toList.isSuffixOf name.toList && decide (start.length + finish.length ≤ name.length)).mergeSort (· ≤ ·)

/-- The files below the storage directory, in ascending order. -/
def listing (s : Storage) : List String :=
  (s.files.keys.filter fun path => path.toList.head? != some '/' && !"../".toList.isPrefixOf path.toList).mergeSort
    (· ≤ ·)

theorem find?_write_self {s t : Storage} {place : Location} {v : Value} (h : s.write place v = .ok t) :
    t.find? place = some (.value v) := by
  unfold write at h
  split at h
  · simp at h
  · obtain rfl := Except.ok.inj h
    simp [find?]

theorem find?_write_ne {s t : Storage} {place other : Location} {v : Value} (h : s.write place v = .ok t)
    (hne : other.path ≠ place.path) : t.find? other = s.find? other := by
  unfold write at h
  split at h
  · simp at h
  · obtain rfl := Except.ok.inj h
    simp [find?, Entries.get?_set_ne _ _ hne]

end Storage

end WorkGraph
