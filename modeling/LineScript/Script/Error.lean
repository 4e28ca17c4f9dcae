/-
All that can go wrong between a script and its output, with the codes and texts under which it is
reported.
-/

import LineScript.Run.Action
import LineScript.Settings.Basic
import LineScript.Stmt.Parser

namespace LineScript

/-- Why a script was not run to its end. -/
inductive ScriptError where
  | invalidFileType (path : String) (expected : List String)
  | eval (error : EvalError)
  | parse (error : StmtError)
  | io (message : String)
  | settings (error : SettingsError)
deriving DecidableEq

namespace ScriptError

/-- An error of a run. -/
def ofRun : RunError → ScriptError
  | .eval error => .eval error
  | .output message => .io message

/-- The short code of an error. -/
def code : ScriptError → String
  | .invalidFileType _ _ => "E001"
  | .eval _ => "E002"
  | .parse _ => "E003"
  | .io _ => "E004"
  | .settings _ => "E005"

/-- The description of an error. -/
def message : ScriptError → String
  | .invalidFileType path _ => "Invalid file type '" ++ path ++ "'"
  | .eval error => error.message
  | .parse error => "Parse error: " ++ error.message
  | .io message => "IO error: " ++ message
  | .settings error => error.message

/-- What may help to mend an error. -/
def hint? : ScriptError → Option String
  | .invalidFileType _ expected => some ("expected one of: " ++ ", ".intercalate expected)
  | .eval error => some error.expression
  | .parse error => error.hint?
  | .io _ => none
  | .settings _ => none

end ScriptError

end LineScript
