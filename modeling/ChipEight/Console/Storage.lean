import ChipEight.Text.Split

/-!
# Storage

Where commands find their files. `Tree` is a storage of named files, in which every
directory exists that some file needs; a path is followed from one component to the
next, so that it fails where the first component does not lead on.
-/

namespace ChipEight

/-- Why a file cannot be read. -/
inductive StorageError
  /-- There is nothing at the path. -/
  | notFound
  /-- The path goes on after a file. -/
  | notDirectory
  /-- The path leads to a directory. -/
  | isDirectory
  /-- The path or a component of it is longer than names may be. -/
  | nameTooLong
  /-- Something else, in the words of the system. -/
  | other (message : String)
  deriving DecidableEq, Repr

/-- What is said about a file that cannot be read. -/
def StorageError.message : StorageError → String
  | notFound => "No such file or directory (os error 2)"
  | notDirectory => "Not a directory (os error 20)"
  | isDirectory => "Is a directory (os error 21)"
  | nameTooLong => "File name too long (os error 36)"
  | other message => message

/-- How files are read: the bytes at a path. -/
abbrev Reader := String → Except StorageError (List UInt8)

namespace Path

/-- The components of a path, with empty ones where slashes follow each other. -/
def components (path : String) : List String :=
  (Split.pieces (· == '/') path.toList).map String.ofList

/-- A component that leads nowhere else. -/
def isIdle (component : String) : Bool := component == "" || component == "."

/-- How many bytes a component may have. -/
def componentLimit : Nat := 255

/-- How many bytes a path may have. -/
def pathLimit : Nat := 4095

/-- The last component that names something; a step upwards names nothing. -/
def fileName (path : String) : String :=
  match ((components path).filter fun c => !isIdle c).getLast? with
  | some ".." => ""
  | some name => name
  | none => ""

end Path

/-- Files with the components of their paths. -/
structure Tree where
  /-- The files, each once. -/
  files : List (List String × List UInt8)
  deriving Repr

namespace Tree

/-- The storage of some files, given with their paths. -/
def ofFiles (files : List (String × List UInt8)) : Tree :=
  ⟨files.map fun (path, bytes) => ((Path.components path).filter fun c => !Path.isIdle c, bytes)⟩

/-- The bytes of the file at a place. -/
def file? (t : Tree) (place : List String) : Option (List UInt8) :=
  (t.files.find? fun f => f.1 == place).map (·.2)

/-- A place is a directory if some file lies below it. -/
def isDirectory (t : Tree) (place : List String) : Bool :=
  place.isEmpty || t.files.any fun f => place.isPrefixOf f.1 && place.length < f.1.length

/-- What following components leads to where nothing is stored. -/
def outside : List String → StorageError
  | [] => .isDirectory
  | c :: rest =>
    if Path.isIdle c || c == ".." then outside rest
    else if Path.componentLimit < c.utf8ByteSize then .nameTooLong
    else .notFound

/-- Follow components from a directory. -/
def follow (t : Tree) (place : List String) : List String → Except StorageError (List UInt8)
  | [] => .error .isDirectory
  | c :: rest =>
    if Path.isIdle c then follow t place rest
    else if c = ".." then
      if place.isEmpty then .error (outside rest) else follow t place.dropLast rest
    else if Path.componentLimit < c.utf8ByteSize then .error .nameTooLong
    else
      match t.file? (place ++ [c]) with
      | some bytes => if rest.isEmpty then .ok bytes else .error .notDirectory
      | none =>
        if t.isDirectory (place ++ [c]) then follow t (place ++ [c]) rest
        else .error .notFound

/-- Read a file. The empty path and paths from the root lead to nothing that is stored here. -/
def read (t : Tree) : Reader := fun path =>
  if path = "" then .error .notFound
  else if Path.pathLimit < path.utf8ByteSize then .error .nameTooLong
  else if path.toList.head? = some '/' then .error (outside (Path.components path))
  else t.follow [] (Path.components path)

end Tree

end ChipEight
