import Phrasebook.FileSystem.Path

/-!
# File systems

A file system is a value: a tree of directories and files, kept as a list of places with what is
there, and the working directory from which relative paths start. Walking along a path goes part by
part; each part needs a directory to be looked up in.
-/

namespace Phrasebook

inductive FileError where
  | notFound
  | isDirectory
  | notDirectory
  /-- The content is no UTF-8 text. -/
  | notText
  deriving DecidableEq, Repr

def FileError.message : FileError → String
  | .notFound => "No such file or directory (os error 2)"
  | .isDirectory => "Is a directory (os error 21)"
  | .notDirectory => "Not a directory (os error 20)"
  | .notText => "stream did not contain valid UTF-8"

inductive Node where
  | file (content : ByteArray)
  | directory

/-- A place in the tree: the names that lead to it from the root, the innermost first. -/
abbrev Place := List String

/-- A tree of directories and files. -/
structure FileSystem where
  nodes : List (Place × Node) := []
  workingDirectory : Place := []

namespace FileSystem

/-- What is at a place. The root is always a directory. -/
def nodeAt? (files : FileSystem) (place : Place) : Option Node :=
  if place.isEmpty then some .directory else files.nodes.lookup place

/-- Goes along one part of a path. -/
def enter (files : FileSystem) (place : Place) (part : String) : Except FileError Place :=
  match files.nodeAt? place with
  | none => .error .notFound
  | some (.file _) => .error .notDirectory
  | some .directory =>
    if part = "" ∨ part = "." then .ok place
    else if part = ".." then .ok place.tail
    else if (files.nodeAt? (part :: place)).isSome then .ok (part :: place)
    else .error .notFound

def start (files : FileSystem) (path : String) : Place :=
  if Path.isAbsolute path then [] else files.workingDirectory

/-- The places that a path leads through, whether anything is there or not. -/
def waypoints (files : FileSystem) (path : String) : List Place :=
  ((Path.parts path).foldl (fun (place, places) part =>
    let next :=
      if part = "" ∨ part = "." then place else if part = ".." then place.tail else part :: place
    (next, places ++ [next])) (files.start path, [files.start path])).2

def pathOf (place : Place) : String := "/" ++ "/".intercalate place.reverse

/-- The place at which a path ends. -/
def locate (files : FileSystem) (path : String) : Except FileError Place :=
  if path.isEmpty then .error .notFound
  else (Path.parts path).foldlM files.enter (files.start path)

def read (files : FileSystem) (path : String) : Except FileError ByteArray := do
  match files.nodeAt? (← files.locate path) with
  | some (.file content) => pure content
  | some .directory => throw .isDirectory
  | none => throw .notFound

def readText (files : FileSystem) (path : String) : Except FileError String := do
  match String.fromUTF8? (← files.read path) with
  | some text => pure text
  | none => throw .notText

def isFile (files : FileSystem) (path : String) : Bool := (files.read path).isOk

def namesIn (files : FileSystem) (place : Place) : List String :=
  files.nodes.filterMap fun (inner, _) =>
    match inner with
    | name :: outer => if outer = place then some name else none
    | [] => none

def list? (files : FileSystem) (path : String) : Option (List String) :=
  match files.locate path with
  | .error _ => none
  | .ok place =>
    match files.nodeAt? place with
    | some .directory => some (files.namesIn place)
    | _ => none

def set (files : FileSystem) (place : Place) (node : Node) : FileSystem :=
  { files with nodes := (place, node) :: files.nodes.filter fun (other, _) => other != place }

/-- Makes the directories that lead to a place, and the place itself if it is one. -/
def makeDirectories (files : FileSystem) (place : Place) : FileSystem :=
  match place with
  | [] => files
  | name :: outer =>
    let files := files.makeDirectories outer
    if (files.nodeAt? (name :: outer)).isSome then files else files.set (name :: outer) .directory

def addFile (files : FileSystem) (place : Place) (content : ByteArray) : FileSystem :=
  (files.makeDirectories place.tail).set place (.file content)

/-- Writes a file. The directory must be there; an existing file is replaced, a directory is not. -/
def write (files : FileSystem) (path : String) (content : ByteArray) :
    Except FileError FileSystem := do
  if path.isEmpty then throw .notFound
  let parts := Path.parts path
  match parts.reverse.dropWhile String.isEmpty with
  | [] => throw .isDirectory
  | last :: outer =>
    let directory ← (outer.reverse ++ [""]).foldlM files.enter (files.start path)
    if outer.length + 1 < parts.length ∨ last = "." ∨ last = ".." then throw .isDirectory
    match files.nodeAt? (last :: directory) with
    | some .directory => throw .isDirectory
    | _ => pure (files.set (last :: directory) (.file content))

/-- The files whose content is not what it was before. -/
def changedSince (files before : FileSystem) : List (Place × ByteArray) :=
  files.nodes.filterMap fun (place, node) =>
    match node with
    | .directory => none
    | .file content =>
      match before.nodeAt? place with
      | some (.file old) => if old.data = content.data then none else some (place, content)
      | _ => some (place, content)

end FileSystem

end Phrasebook
