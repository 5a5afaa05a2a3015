import FrameIntake.Bytes
import FrameIntake.Host.FilePath

/-!
The files of a host, as far as listening sockets and option files need them: what stands at a location,
where a path leads, and which listener a socket belongs to.
-/

namespace FrameIntake

inductive FileEntry
  | file (content : Bytes)
  | directory
  /-- A socket, with the number of the listener that made it. -/
  | socket (owner : Nat)
  deriving DecidableEq, Repr

def FileEntry.isSocket : FileEntry → Bool
  | socket _ => true
  | _ => false

/-- The names on the way from the root to a file. The root itself has none. -/
abbrev Location := List String

/-- One name further. There is nothing above the root. -/
def Location.next (here : Location) (name : String) : Location :=
  if name = "" || name = "." then here
  else if name = ".." then here.dropLast
  else here ++ [name]

structure FileTree where
  /-- Where paths begin that do not begin at the root. It stays a directory, and so do those above. -/
  workingDirectory : Location := []
  entries : List (Location × FileEntry) := []
  deriving Repr

namespace FileTree

/-- What stands at a location, whatever stands above it. -/
def get? (t : FileTree) (location : Location) : Option FileEntry :=
  if location.isPrefixOf t.workingDirectory then some .directory else t.entries.lookup location

def erase (t : FileTree) (location : Location) : FileTree :=
  { t with entries := t.entries.filter fun (l, _) => l != location }

def insert (t : FileTree) (location : Location) (entry : FileEntry) : FileTree :=
  { t with entries := (location, entry) :: (t.erase location).entries }

/-- Follows the names from `here` on. Each of them can only be looked up in a directory. -/
def follow (t : FileTree) (here : Location) : List String → Except IoError Location
  | [] => .ok here
  | name :: rest =>
    match t.get? here with
    | none => .error .noSuchFile
    | some .directory =>
      if FilePath.maxNameSize < name.utf8ByteSize then .error .fileNameTooLong
      else t.follow (here.next name) rest
    | some _ => .error .notADirectory

/-- Where a path leads. Nothing has to stand there, but in a directory it is. -/
def locate (t : FileTree) (path : FilePath) : Except IoError Location :=
  t.follow (if path.fromRoot then [] else t.workingDirectory) path.names

def lookup (t : FileTree) (path : FilePath) : Except IoError FileEntry := do
  (t.get? (← t.locate path)).elim (.error .noSuchFile) .ok

/-- The bytes of a file. -/
def read (t : FileTree) (path : FilePath) : Except IoError Bytes := do
  match ← t.lookup path with
  | .file content => .ok content
  | .directory => .error .isADirectory
  | .socket _ => .error .noSuchDeviceOrAddress

/-- Removes a file or socket; directories stay. -/
def remove (t : FileTree) (path : FilePath) : Except IoError FileTree := do
  match ← t.lookup path with
  | .directory => .error .isADirectory
  | _ => .ok (t.erase (← t.locate path))

/-- Puts a new entry where a path leads. -/
def create (t : FileTree) (path : FilePath) (entry : FileEntry) : Except IoError FileTree := do
  let location ← t.locate path
  match t.get? location with
  | some _ => .error .addressInUse
  | none => .ok (t.insert location entry)

/-- A name that is looked up leads into a directory. -/
theorem get?_of_follow {t : FileTree} {here there : Location} {name : String} {rest : List String}
    (h : t.follow here (name :: rest) = .ok there) : t.get? here = some .directory := by
  rw [follow] at h
  split at h
  · contradiction
  · assumption
  · contradiction

end FileTree

end FrameIntake
