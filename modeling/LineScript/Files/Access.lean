/-
Paths as texts, and what the program asks of a file system along them. The parent of a path is what
is left without its last component; repeated slashes and points inside a path are no components, a
point at the very start is one.

The file system is a pair of questions in any monad: the real one asks the machine, a tree of files
held in memory answers at once. Settings and scripts are found and read through it.
-/

import LineScript.Eval.Basic
import LineScript.Notice
import LineScript.Script.Error
import LineScript.Settings.Document

namespace LineScript.Path

/-- The part of a path that comes before its components: the root slash, or the point that a
relative path may start with. -/
def rootLength : List Char → Nat
  | '/' :: _ => 1
  | ['.'] => 1
  | '.' :: '/' :: _ => 1
  | _ => 0

/-- The reversed components of a path without the slashes and points at their end, which comes
first here. -/
def trimReversed : List Char → List Char
  | [] => []
  | '/' :: rest => trimReversed rest
  | '.' :: '/' :: rest => trimReversed rest
  | ['.'] => []
  | chars => chars

/-- The path without its last component. The empty path and the root have none. -/
def parent? (path : String) : Option String :=
  let chars := path.toList
  let front := chars.take (rootLength chars)
  match trimReversed (chars.drop (rootLength chars)).reverse with
  | [] => if front = ['.'] then some "" else none
  | reversed =>
    let rest := trimReversed ((reversed.dropWhile (· != '/')).drop 1)
    some (String.ofList (front ++ rest.reverse))

/-- A path and what is left of it as its components are taken off one by one, at most `fuel`
times. -/
def ancestorsFrom : (fuel : Nat) → String → List String
  | 0, path => [path]
  | fuel + 1, path =>
    match parent? path with
    | some parent => path :: ancestorsFrom fuel parent
    | none => [path]

/-- A path and all the directories above it, as far as the path names them. -/
def ancestors (path : String) : List String :=
  ancestorsFrom (path.length + 1) path

/-- A name in a directory. -/
def join (directory name : String) : String :=
  match directory.toList.getLast? with
  | none => name
  | some '/' => directory ++ name
  | some _ => directory ++ "/" ++ name

end LineScript.Path

namespace LineScript

/-- The questions to a file system: whether a path leads to a file, and what bytes are there, or
why they cannot be read. -/
structure Files (m : Type → Type) where
  isFile : String → m Bool
  read : String → m (Except String ByteArray)

variable {m : Type → Type} [Monad m]

/-- The name of the file with settings. -/
def settingsFile : String := "tayozanx.yaml"

/-- The text of a file. -/
def Files.readText (files : Files m) (path : String) : m (Except String String) := do
  match ← files.read path with
  | .error message => return .error message
  | .ok bytes =>
    match String.fromUTF8? bytes with
    | some text => return .ok text
    | none => return .error "stream did not contain valid UTF-8"

/-- The first of some paths that leads to a file. -/
def Files.firstFile? (files : Files m) : List String → m (Option String)
  | [] => return none
  | path :: rest => do
    if ← files.isFile path then return some path
    files.firstFile? rest

/-- The nearest settings file in a directory or one above it. -/
def Files.discover (files : Files m) (directory : String) : m (Option String) :=
  files.firstFile? ((Path.ancestors directory).map fun ancestor => Path.join ancestor settingsFile)

/-- The settings in a file. -/
def Files.loadSettings (files : Files m) (path : String) :
    m (Logged (Except SettingsError Settings)) := do
  match ← files.readText path with
  | .error message => return ⟨.error (.unreadable message), []⟩
  | .ok content =>
    match parseSettings content with
    | .error error => return ⟨.error error, []⟩
    | .ok settings => return ⟨.ok settings, [.settingsLoaded path]⟩

/-- The text of a script. Its ending is checked before anything is read. -/
def Files.readScript (files : Files m) (settings : Settings) (path : String) :
    m (Logged (Except ScriptError String)) := do
  if settings.accepts path then
    match ← files.readText path with
    | .error message => return ⟨.error (.io message), []⟩
    | .ok source => return ⟨.ok source, [.scriptRead source.utf8ByteSize path]⟩
  else return ⟨.error (.invalidFileType path settings.extensions), []⟩

end LineScript
