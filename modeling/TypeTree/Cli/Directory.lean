/-
  The files that a run can see.

  `Directory` says what lies at which path; nothing else about the file system matters to a run.
  `Directory.ofFileSystem` builds one from lists of files and directories.  A path is followed name
  by name: each name, also an empty one between or after slashes, asks that a directory lies where
  it is looked up; a single dot stays there and two dots go up.
-/
import TypeTree.Failure

namespace TypeTree.Cli

/-- What lies at a path. -/
inductive Entry where
  | file (content : ByteArray)
  /-- a file that is there but cannot be read -/
  | unreadable (fault : ReadFault)
  | directory
  /-- the standard input, under a name of its own -/
  | stdin

/-- What lies at which path, seen from the working directory, or why nothing can be found there. -/
structure Directory where
  lookup : String → Except ReadFault Entry

namespace Directory

/-! ## Reading -/

/-- A regular file lies at the path, whether or not it can be read. -/
def isFile (d : Directory) (path : String) : Bool :=
  match d.lookup path with
  | .ok (.file _) | .ok (.unreadable _) => true
  | _ => false

/-- Bytes as text. -/
def decode (content : ByteArray) : Except ReadFault String :=
  match String.fromUTF8? content with
  | some text => .ok text
  | none => .error .notUtf8

/-- The text of the file at a path, with `stdin` on the standard input. -/
def read (d : Directory) (stdin : ByteArray) (path : String) : Except ReadFault String :=
  match d.lookup path with
  | .ok (.file content) => decode content
  | .ok (.unreadable fault) => .error fault
  | .ok .directory => .error .isDirectory
  | .ok .stdin => decode stdin
  | .error fault => .error fault

/-- What is left on the standard input once the file at a path has been read. -/
def leftover (d : Directory) (stdin : ByteArray) (path : String) : ByteArray :=
  match d.lookup path with
  | .ok .stdin => ByteArray.empty
  | _ => stdin

/-! ## Directories from lists -/

/-- The names that lead to an entry, from its path. -/
def names (path : String) : List String :=
  (path.splitOn "/").filter fun name => !(name.isEmpty || name == ".")

/-- Files and directories, each with the names that lead to it. -/
abbrev Entries := List (List String × Entry)

/-- What lies at the end of a row of names.  What lies above an entry is a directory. -/
def Entries.find (entries : Entries) (place : List String) : Except ReadFault Entry :=
  if place.isEmpty then .ok .directory
  else
    match List.find? (·.1 == place) entries with
    | some (_, e) => .ok e
    | none => if entries.any (place.isPrefixOf ·.1) then .ok .directory else .error .missing

/-- What is known of a file system: the entries in the working directory and in the root, and how
    many levels the one lies below the other. -/
structure FileSystem where
  here : Entries
  root : Entries
  depth : Nat

/-- A place in the file system. -/
inductive Location where
  /-- the end of a row of names that starts in the working directory -/
  | here (place : List String)
  /-- the end of a row of names that starts in the root -/
  | root (place : List String)
  /-- a directory that many levels above the working directory, of which nothing else is known -/
  | above (levels : Nat)

/-- The directory some levels above the working directory. -/
def FileSystem.above (fs : FileSystem) (levels : Nat) : Location :=
  if levels < fs.depth then .above levels else .root []

/-- The place one level up; the root is its own parent. -/
def FileSystem.parent (fs : FileSystem) : Location → Location
  | .here [] => fs.above 1
  | .here place => .here place.dropLast
  | .root place => .root place.dropLast
  | .above levels => fs.above (levels + 1)

/-- What lies at a place. -/
def FileSystem.entryAt (fs : FileSystem) : Location → Except ReadFault Entry
  | .here place => fs.here.find place
  | .root place => fs.root.find place
  | .above _ => .ok .directory

/-- The most bytes that a name can have. -/
def nameLimit : Nat := 255

/-- The most bytes that a path can have. -/
def pathLimit : Nat := 4095

/-- The place that a name leads to from a directory. -/
def FileSystem.enter (fs : FileSystem) (l : Location) (name : String) :
    Except ReadFault Location :=
  if name.isEmpty || name == "." then .ok l
  else if name == ".." then .ok (fs.parent l)
  else if nameLimit < name.utf8ByteSize then .error .nameTooLong
  else
    match l with
    | .here place => .ok (.here (place ++ [name]))
    | .root place => .ok (.root (place ++ [name]))
    | .above _ => .error .missing

/-- The place that names lead to. -/
def FileSystem.follow (fs : FileSystem) (l : Location) : List String → Except ReadFault Location
  | [] => .ok l
  | name :: more =>
    match fs.entryAt l with
    | .error fault => .error fault
    | .ok (.file _) | .ok (.unreadable _) | .ok .stdin => .error .notDirectory
    | .ok .directory =>
      match fs.enter l name with
      | .error fault => .error fault
      | .ok next => fs.follow next more

/-- What lies at the end of a path. -/
def FileSystem.resolve (fs : FileSystem) (path : String) : Except ReadFault Entry :=
  if path.isEmpty then .error .missing
  else if pathLimit < path.utf8ByteSize then .error .nameTooLong
  else
    let start := if path.startsWith "/" then .root [] else .here []
    match fs.follow start (path.splitOn "/") with
    | .error fault => .error fault
    | .ok l => fs.entryAt l

/-- The working directory of a file system. -/
def ofFileSystem (fs : FileSystem) : Directory where
  lookup := fs.resolve

end Directory

end TypeTree.Cli
