/-
Settings from the text of a document. What the document leaves out has its standard value.
-/

import LineScript.Settings.Basic
import LineScript.Text.Blank
import LineScript.Yaml.Node

namespace LineScript

open Text Yaml

/-- The text of a scalar. -/
def Yaml.Node.text? : Node → Option String
  | .scalar text _ => some text
  | _ => none

/-- The truth value of a plain scalar. -/
def Yaml.Node.truth? : Node → Option Bool
  | .scalar text true =>
    if ["true", "True", "TRUE"].contains text then some true
    else if ["false", "False", "FALSE"].contains text then some false
    else none
  | _ => none

/-- The texts of a list. Nothing at all is the empty list. -/
def Yaml.Node.texts? : Node → Option (List String)
  | .list items => items.mapM Node.text?
  | .scalar text true => if text = "" then some [] else none
  | _ => none

/-- The entries of a mapping. Nothing at all is the empty mapping. -/
def Yaml.Node.entries? : Node → Option (List (String × Node))
  | .map entries => some entries
  | .scalar text true => if text = "" then some [] else none
  | _ => none

/-- The texts of a mapping. -/
def Yaml.Node.table? (node : Node) : Option (Table String) := do
  let entries ← node.entries?
  let pairs ← entries.mapM fun (key, value) => value.text?.map fun text => (key, text)
  return .ofList pairs

/-- The settings with one key of a document taken in. -/
def Settings.take? (settings : Settings) (key : String) (node : Node) : Option Settings :=
  match key with
  | "aliases" => node.table?.map fun aliases => { settings with aliases }
  | "extensions" => node.texts?.map fun extensions => { settings with extensions }
  | "strict" => node.truth?.map fun strict => { settings with strict }
  | _ => none

/-- The settings of the entries of a document. No key may stand there twice. -/
def settingsOfEntries? : List (String × Node) → Option Settings
  | entries =>
    if (entries.map Prod.fst).Nodup then
      entries.foldlM (fun settings (key, node) => settings.take? key node) .standard
    else none

/-- The settings that a text gives. A blank text gives the standard ones. -/
def parseSettings (content : String) : Except SettingsError Settings :=
  let settings? :=
    if isBlankText content then some .standard
    else do settingsOfEntries? (← (← document? content).entries?)
  match settings? with
  | some settings => settings.validate
  | none => .error .malformed

end LineScript
