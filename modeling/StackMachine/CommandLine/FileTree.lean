import StackMachine.CommandLine.Path

/-!
# Opening the output file

What becomes of opening a path for writing, for a command that runs in an empty working directory of a Unix system. A
path is followed part by part. Each part but the last must lead to a directory, and the last must not: it leads to a
file, or to a name in a directory under which a file is created.

* A double dot leads to the directory above; the root is above itself.
* A link leads to its target, so that a double dot behind it leads above the target.
* The length of a name is checked in the directory that it is looked up in, the length of the path before all else.

What there is besides the working directory is a parameter of all this.
-/

namespace StackMachine.CommandLine

/-- Why a file cannot be written. -/
inductive OpenError where
  /-- The path leads to a directory. -/
  | isDirectory
  /-- A part of the path that is followed by others leads to a file. -/
  | notDirectory
  /-- A part of the path that is followed by others leads nowhere. -/
  | notFound
  /-- The directory takes no new files. -/
  | notPermitted
  /-- The path, or a part of it, is too long. -/
  | tooLong
  /-- The path leads to a device that takes no data. -/
  | deviceRefuses
  /-- The path contains the character NUL. -/
  | invalidPath
deriving DecidableEq

/-- Where a file is written. -/
inductive Place where
  /-- Under a name in the working directory. -/
  | inside (name : String)
  /-- Somewhere else. -/
  | outside
deriving DecidableEq

/-- A place in the tree: the names that lead to it from the root. -/
abbrev Location := List String

namespace Location

/-- The directory above; the root is above itself. -/
def above (here : Location) : Location := here.dropLast

/-- What a name in a directory stands for. -/
def child (here : Location) (name : String) : Location := here ++ [name]

/-- The working directory. It lies in the directory for temporary files, under a name that no path can spell. -/
def working : Location := ["tmp", ""]

end Location

/-- The entries of a system besides the working directory. -/
structure FileTree where
  directories : List Location
  /-- The files, and the devices that take all data. -/
  files : List Location
  /-- The devices that take no data. -/
  fullDevices : List Location
  /-- The links with their targets, all of them directories. -/
  links : List (Location × Location)
  /-- The directories in which, at any depth, a name may be of any length. -/
  views : List Location
  /-- The directories in which, at any depth, no file can be created, and what the attempt ends with. -/
  closed : List (Location × OpenError)

namespace FileTree

/-- The number of bytes that a name may have. -/
def maxNameSize : Nat := 255

/-- The number of bytes that a path may have. -/
def maxPathSize : Nat := 4095

/-- What a location leads to. -/
inductive Entry where
  | directory (location : Location)
  | file
  | fullDevice
deriving DecidableEq

variable (tree : FileTree)

/-- The entry at a location, links being followed. -/
def entry? (location : Location) : Option Entry :=
  if tree.directories.contains location then some (.directory location)
  else if tree.files.contains location then some .file
  else if tree.fullDevices.contains location then some .fullDevice
  else (tree.links.lookup location).map .directory

/-- Whether a name that is looked up in a directory may be of any length. -/
def isView (here : Location) : Bool :=
  tree.views.any fun view => view.isPrefixOf here

/-- Creates a file under a name that a directory does not have. -/
def create (here : Location) (name : String) : Except OpenError Place :=
  if here = Location.working then .ok (.inside name)
  else
    match tree.closed.find? fun directory => directory.1.isPrefixOf here with
    | some (_, error) => .error error
    | none => .ok .outside

/-- Follows the parts of a path from a directory, and opens what they lead to. -/
def follow (here : Location) : List String → Except OpenError Place
  | [] => .error .isDirectory
  | name :: rest =>
    if name = ".." then follow here.above rest
    else if maxNameSize < name.utf8ByteSize && !tree.isView here then .error .tooLong
    else
      match tree.entry? (here.child name) with
      | some (.directory location) => follow location rest
      | some .file => if rest.isEmpty then .ok .outside else .error .notDirectory
      | some .fullDevice => .error (if rest.isEmpty then .deviceRefuses else .notDirectory)
      | none => if rest.isEmpty then tree.create here name else .error .notFound

end FileTree

/-- Where a path leads to from an empty working directory, if a file can be written there. -/
def Path.place (tree : FileTree) (p : Path) : Except OpenError Place :=
  if p.text.toList.contains '\x00' then .error .invalidPath
  else if FileTree.maxPathSize < p.text.utf8ByteSize then .error .tooLong
  else tree.follow (if p.isAbsolute then [] else .working) p.parts

end StackMachine.CommandLine
