/-
Notices: what the program tells about its own work, apart from its output. Each has a level and a
text; they are collected beside the results in the order in which they arise.
-/

namespace LineScript

/-- How important a notice is. -/
inductive NoticeLevel where
  | warning
  | debug
  | trace
deriving DecidableEq, Repr

/-- What the program may tell about its work. -/
inductive Notice where
  | aliasesIgnored (reason : String)
  | lexed (counted total : Nat)
  | parsed (statements : Nat)
  | skipped (line : Nat) (text : String)
  | compiled (instructions : Nat)
  | notCompiled (keyword : String) (line nested : Nat)
  | executing (offset : Nat) (operation : String)
  | finished (globals : Nat)
  | frame (number : Nat)
  | settingsLoaded (path : String)
  | scriptRead (bytes : Nat) (path : String)
deriving DecidableEq, Repr

/-- The name of a level. -/
def NoticeLevel.name : NoticeLevel → String
  | .warning => "WARN"
  | .debug => "DEBUG"
  | .trace => "TRACE"

/-- The level of a notice. -/
def Notice.level : Notice → NoticeLevel
  | .aliasesIgnored _ => .warning
  | .skipped _ _ => .warning
  | .executing _ _ => .trace
  | .frame _ => .trace
  | _ => .debug

/-- A number with zeros in front, so that it has at least four digits. -/
def fourDigits (n : Nat) : String :=
  let digits := (toString n).toList
  String.ofList (List.replicate (4 - digits.length) '0' ++ digits)

/-- The text of a notice. -/
def Notice.text : Notice → String
  | .aliasesIgnored reason => "alias table ignored: " ++ reason
  | .lexed counted total =>
    "lexed " ++ toString counted ++ " significant lines out of " ++ toString total
  | .parsed statements => "parsed " ++ toString statements ++ " top-level statements"
  | .skipped line text => "skipping unrecognized line " ++ toString line ++ ": " ++ text
  | .compiled instructions => "compiled " ++ toString instructions ++ " instructions"
  | .notCompiled keyword line nested =>
    "not compiled: '" ++ keyword ++ "' at line " ++ toString line ++ " (" ++ toString nested ++
      " nested statements)"
  | .executing offset operation => fourDigits offset ++ " " ++ operation
  | .finished globals => "vm finished with " ++ toString globals ++ " globals"
  | .frame number => "tick frame " ++ toString number
  | .settingsLoaded path => "loaded config from " ++ path
  | .scriptRead bytes path => "read " ++ toString bytes ++ " bytes from " ++ path

/-- A result and the notices that arose on the way to it. -/
structure Logged (α : Type) where
  value : α
  notices : List Notice

end LineScript
