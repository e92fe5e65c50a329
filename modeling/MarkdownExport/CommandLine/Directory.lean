import MarkdownExport.CommandLine.Run

/-! A working directory without subdirectories, and where paths lead from it. Of the directories
around it only those that every system has are known; other names in them are not taken. -/
namespace MarkdownExport.CommandLine

structure Directory where
  path : Text
  packages : List (Text × Except Error Word.Package)

/-- The parts of a path between its slashes. -/
def pathParts (path : Text) : List Text := (path.splitOn '/').filter fun part => !part.isEmpty

def longestName : Nat := 255
def longestPath : Nat := 4095

def isHere (part : Text) : Bool := part == ['.']
def isAbove (part : Text) : Bool := part == ['.', '.']

/-- The directories that stand in the root directory of every system. -/
def systemDirectories : List Text :=
  ["bin", "boot", "dev", "etc", "home", "lib", "media", "mnt", "opt", "proc", "root", "run",
   "sbin", "srv", "sys", "tmp", "usr", "var"]

inductive Place where
  | working | root
  /-- A directory in the root directory. -/
  | system (name : Text)
  /-- Some other directory. -/
  | elsewhere
  | file (package : Except Error Word.Package)

/-- The file `/dev/null`, which is empty whatever is written to it. -/
def nullDevice : Except Error Word.Package := Word.Package.ofZip .empty

namespace Directory

/-- Goes from a place to what is called `part` there. -/
def enter (d : Directory) (place : Place) (part : Text) : Except FileError Place :=
  if let .file _ := place then .error .notADirectory
  else if isHere part then .ok place
  else if isAbove part then
    .ok (match place with
      | .root | .system _ => .root
      | _ => .elsewhere)
  else if longestName < part.bytes8 then .error .nameTooLong
  else match place with
    | .working =>
      match d.packages.lookup part with
      | some package => .ok (.file package)
      | none => .error .notFound
    | .root => if systemDirectories.contains part then .ok (.system part) else .error .notFound
    | .system name =>
      if name == "dev".toList && part == "null".toList then .ok (.file nullDevice)
      else .error .notFound
    | _ => .error .notFound

/-- Follows the parts of a path. -/
def follow (d : Directory) (path : Text) (parts : List Text) : Except FileError Place :=
  if longestPath < path.bytes8 then .error .nameTooLong
  else parts.foldlM d.enter (if path.startsWith ['/'] then .root else .working)

def read (d : Directory) (path : Text) : Except FileError (Except Error Word.Package) :=
  match d.follow path (pathParts path) with
  | .error e => .error e
  | .ok (.file package) => if path.endsWith ['/'] then .error .notADirectory else .ok package
  | .ok _ => .error .isADirectory

/-- The directory and the name of the file that writing to a path makes or replaces. -/
def target (d : Directory) (path : Text) : Except FileError (Place × Text) := do
  let parts := pathParts path
  let place ← d.follow path parts.dropLast
  match parts.getLast? with
  | none => .error .isADirectory
  | some name =>
    if let .file _ := place then .error .notADirectory
    else if isHere name || isAbove name || path.endsWith ['/'] then .error .isADirectory
    else match d.enter place name with
      | .ok (.file _) | .error .notFound => .ok (place, name)
      | .ok _ => .error .isADirectory
      | .error e => .error e

def refusal (d : Directory) (path : Text) : Option FileError :=
  match d.target path with
  | .ok _ => none
  | .error e => some e

/-- A path from the root. It keeps the parts that lead up, and two slashes at its start if there are
exactly two. -/
def absolute (d : Directory) (path : Text) : Text :=
  let parts := (pathParts path).filter fun part => !isHere part
  match path with
  | '/' :: rest =>
    let doubled := Text.startsWith rest ['/'] && !Text.startsWith rest ['/', '/']
    (if doubled then ['/'] else []) ++ '/' :: List.intercalate ['/'] parts
  | _ => List.intercalate ['/'] (d.path :: parts)

def files (d : Directory) : Files := ⟨d.read, d.refusal, d.absolute⟩

/-- The name and content of the file that a call adds to the directory. A package that is written
over was there before. -/
def added? (d : Directory) (o : Outcome) : Option (Text × Text) :=
  o.written.bind fun (path, content) =>
    match d.target path with
    | .ok (.working, name) => if (d.packages.lookup name).isSome then none else some (name, content)
    | _ => none

end Directory
end MarkdownExport.CommandLine
