import NumCheck.Path

/-!
# Files

What reading a file can come to, and directories in memory to read from. A path leads
through directories name by name. What lies above the current directory is not known to
hold anything.
-/

namespace NumCheck.Command

/-- Why a file cannot be read. -/
inductive ReadError where
  /-- Nothing has the name. -/
  | noSuchFile
  /-- It is a directory. -/
  | isDirectory
  /-- The path goes on after a file. -/
  | notDirectory
  /-- A name is too long. -/
  | nameTooLong
  /-- Any other reason. -/
  | other (reason : String)
  deriving DecidableEq, Repr

/-- What is said of a file that cannot be read. -/
def ReadError.message : ReadError → String
  | .noSuchFile => "No such file or directory"
  | .isDirectory => "Is a directory"
  | .notDirectory => "Not a directory"
  | .nameTooLong => "File name too long"
  | .other reason => reason

/-- What has a name in a directory. -/
inductive Entry where
  /-- A file with its content. -/
  | file (content : ByteArray)
  /-- A directory. -/
  | directory

/-- The files and directories below the current directory, by the names that lead to them. -/
structure Storage where
  /-- The directories, apart from those that only lead to something else. -/
  directories : List (List String) := []
  /-- The files. -/
  files : List (List String × ByteArray) := []

namespace Storage

/-- What the given names lead to. Of two files in one place the later one counts. -/
def entry? (s : Storage) (names : List String) : Option Entry :=
  match s.files.reverse.find? (·.1 == names) with
  | some (_, content) => some (.file content)
  | none =>
    if (s.directories ++ s.files.map (·.1)).any names.isPrefixOf then some .directory else none

/-- A place on the way along a path. -/
inductive Place where
  /-- Below the current directory, or the directory itself; the names that lead there, the
  last one first. -/
  | below (names : List String)
  /-- Above the current directory. -/
  | above

/-- The entry at a place. The current directory itself is always there. -/
def entryAt? (s : Storage) : Place → Option Entry
  | .above | .below [] => some .directory
  | .below names => s.entry? names.reverse

/-- The place that a name leads to. -/
def Place.down (name : String) : Place → Option Place
  | .above => if name = ".." then some .above else none
  | .below [] => some (if name = ".." then .above else .below [name])
  | .below (last :: up) => some (.below (if name = ".." then up else name :: last :: up))

/-- The longest name, in bytes. -/
def nameLimit : Nat := 255

/-- The longest path, in bytes. -/
def pathLimit : Nat := 4095

/-- Follow names from a place. -/
def follow (s : Storage) : (names : List String) → Place → Except ReadError ByteArray
  | [], place =>
    match s.entryAt? place with
    | some (.file content) => .ok content
    | some .directory => .error .isDirectory
    | none => .error .noSuchFile
  | name :: rest, place =>
    match s.entryAt? place with
    | some (.file _) => .error .notDirectory
    | none => .error .noSuchFile
    | some .directory =>
      if name.utf8ByteSize > nameLimit then .error .nameTooLong
      else match place.down name with
        | some place => s.follow rest place
        | none => .error .noSuchFile

/-- Read the file at a path. -/
def read (s : Storage) (p : Path) : Except ReadError ByteArray :=
  if p.render.utf8ByteSize > pathLimit then .error .nameTooLong
  else s.follow p.names (if p.root.isEmpty then .below [] else .above)

end Storage

end NumCheck.Command
