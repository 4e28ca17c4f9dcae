/-
The settings of a run: the aliases, which stand for other words, the endings that script files may
have, and whether lines that are no statements are refused.
-/

import LineScript.Table
import LineScript.Text.Name

namespace LineScript

open Text

/-- The settings of a run. -/
structure Settings where
  aliases : Table String
  extensions : List String
  strict : Bool

/-- The settings that hold where nothing else is said. -/
def Settings.standard : Settings where
  aliases := .ofList [("print", "show"), ("let", "set")]
  extensions := [".tzx", ".tasx"]
  strict := false

/-- Why settings cannot be used. -/
inductive SettingsError where
  | unreadable (message : String)
  | malformed
  | invalidAlias (word target : String)
  | invalidExtension (extension : String)
deriving DecidableEq, Repr

/-- The description of an error. -/
def SettingsError.message : SettingsError → String
  | .unreadable message => "Failed to read config: " ++ message
  | .malformed => "Invalid config: malformed document"
  | .invalidAlias word target =>
    "Invalid alias '" ++ word ++ "' -> '" ++ target ++ "': aliases map one word to one word"
  | .invalidExtension extension =>
    "Invalid extension '" ++ extension ++ "': extensions start with '.'"

/-! ### Validation -/

/-- Whether an entry of the alias table maps a word to a word. -/
def isWordPair (entry : String × String) : Bool :=
  isName entry.1 && isName entry.2

/-- Whether a text may be the ending of script files: a point and something after it. -/
def isExtension (text : String) : Bool :=
  text.toList.head? == some '.' && 2 ≤ text.utf8ByteSize

/-- What is wrong with settings, if anything: the first alias that does not map a word to a word,
or else the first ending that is none. -/
def Settings.fault? (settings : Settings) : Option SettingsError :=
  match settings.aliases.entries.find? fun entry => !isWordPair entry with
  | some (word, target) => some (.invalidAlias word target)
  | none =>
    match settings.extensions.find? fun extension => !isExtension extension with
    | some extension => some (.invalidExtension extension)
    | none => none

/-- The settings, if nothing is wrong with them. -/
def Settings.validate (settings : Settings) : Except SettingsError Settings :=
  match settings.fault? with
  | some error => .error error
  | none => .ok settings

/-! ### Script files -/

/-- Whether a path has one of the endings. -/
def Settings.accepts (settings : Settings) (path : String) : Bool :=
  settings.extensions.any fun extension => extension.toList.isSuffixOf path.toList

end LineScript
