/-
A tree of files held in memory, and how paths are followed in it. Directories exist where they are
listed and above every listed entry.
-/

import LineScript.Files.Access

namespace LineScript

/-- An entry of a tree: the names that lead to it from the root, and its bytes. A directory has
none. -/
structure TreeEntry where
  location : List String
  content : Option ByteArray

/-- A tree of files and the directory that relative paths start in. -/
structure FileTree where
  entries : List TreeEntry
  directory : List String

/-- Why a path cannot be followed or read. -/
inductive PathError where
  | notFound
  | notDirectory
  | isDirectory
deriving DecidableEq, Repr

/-- The description of an error. -/
def PathError.message : PathError → String
  | .notFound => "No such file or directory (os error 2)"
  | .notDirectory => "Not a directory (os error 20)"
  | .isDirectory => "Is a directory (os error 21)"

namespace FileTree

/-- The parts of a path between slashes. -/
def parts : List Char → List (List Char)
  | [] => [[]]
  | c :: rest =>
    if c = '/' then [] :: parts rest
    else
      match parts rest with
      | [] => [[c]]
      | first :: others => (c :: first) :: others

/-- The bytes of the file at a location. Of several entries the last counts. -/
def file? (tree : FileTree) (location : List String) : Option ByteArray :=
  match tree.entries.reverse.find? fun entry => entry.location == location with
  | some entry => entry.content
  | none => none

/-- Whether a location is a directory. -/
def isDirectory (tree : FileTree) (location : List String) : Bool :=
  (tree.file? location).isNone &&
    (location.isPrefixOf tree.directory ||
      tree.entries.any fun entry => location.isPrefixOf entry.location)

/-- One step from a location. Only a directory can be left for another place, be it itself. -/
def step (tree : FileTree) (location : List String) (part : String) :
    Except PathError (List String) :=
  if !tree.isDirectory location then .error .notDirectory
  else if part = "" ∨ part = "." then .ok location
  else if part = ".." then .ok location.dropLast
  else
    let next := location ++ [part]
    if tree.isDirectory next || (tree.file? next).isSome then .ok next else .error .notFound

/-- The location that a path leads to. -/
def locate (tree : FileTree) (path : String) : Except PathError (List String) :=
  let chars := path.toList
  let start := if chars.head? = some '/' then [] else tree.directory
  if path = "" then .error .notFound
  else (parts chars).foldlM (fun location part => tree.step location (String.ofList part)) start

/-- The bytes of the file that a path leads to. -/
def read (tree : FileTree) (path : String) : Except String ByteArray :=
  match tree.locate path with
  | .error error => .error error.message
  | .ok location =>
    match tree.file? location with
    | some bytes => .ok bytes
    | none => .error PathError.isDirectory.message

/-- Whether a path leads to a file. -/
def isFile (tree : FileTree) (path : String) : Bool :=
  match tree.locate path with
  | .error _ => false
  | .ok location => (tree.file? location).isSome

/-- The tree as a file system that answers at once. -/
def files (tree : FileTree) : Files Id :=
  ⟨fun path => tree.isFile path, fun path => tree.read path⟩

end FileTree

end LineScript
