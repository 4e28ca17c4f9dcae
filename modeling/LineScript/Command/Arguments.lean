/-
The arguments of the command line.
-/

import LineScript.Script.Run

namespace LineScript

/-- What is to be run. -/
inductive Task where
  | script (path : String)
  | snippet (code : String)
deriving DecidableEq, Repr

/-- What the arguments ask for. -/
structure Options where
  task : Task
  mode : Mode
  strict : Bool
  settingsPath : Option String
  listing : Bool
deriving DecidableEq, Repr

/-- The options seen so far. -/
structure PartialOptions where
  task : Option Task
  mode : Mode
  strict : Bool
  settingsPath : Option String
  listing : Bool
deriving DecidableEq, Repr

/-- The options before any argument. -/
def PartialOptions.initial : PartialOptions :=
  ⟨none, .standard, false, none, false⟩

/-- What a list of arguments comes to: a request for help or for the version, a mistake, or options
for a run. -/
inductive Invocation where
  | help
  | version
  | mistake (message : String)
  | run (options : Options)
deriving DecidableEq, Repr

namespace PartialOptions

/-- The options with a task, or the mistake of a second one. -/
def withTask (options : PartialOptions) (task : Task) : Except String PartialOptions :=
  match options.task with
  | some _ => .error "Only one script or -e snippet can be given"
  | none => .ok { options with task := some task }

/-- The end of the arguments: there has to be a task. -/
def finish (options : PartialOptions) : Invocation :=
  match options.task with
  | none => .mistake "No script given"
  | some task =>
    .run ⟨task, options.mode, options.strict, options.settingsPath, options.listing⟩

end PartialOptions

/-- What the arguments come to, after the options seen so far. They are read from left to right,
and the first that decides is the last that counts. -/
def readArguments : PartialOptions → List String → Invocation
  | options, [] => options.finish
  | options, argument :: rest =>
    match argument with
    | "--help" => .help
    | "-h" => .help
    | "--version" => .version
    | "-V" => .version
    | "--strict" => readArguments { options with strict := true } rest
    | "--disassemble" => readArguments { options with listing := true } rest
    | "--mode" =>
      match rest with
      | [] => .mistake "--mode requires a value"
      | value :: rest =>
        match Mode.ofName? value with
        | some mode => readArguments { options with mode } rest
        | none => .mistake (Mode.unknownMessage value)
    | "--config" =>
      match rest with
      | [] => .mistake "--config requires a file"
      | path :: rest => readArguments { options with settingsPath := some path } rest
    | "-e" =>
      match rest with
      | [] => .mistake "-e requires a code argument"
      | code :: rest =>
        match options.withTask (.snippet code) with
        | .error message => .mistake message
        | .ok options => readArguments options rest
    | _ =>
      if argument.toList.head? = some '-' then .mistake ("Unknown option: " ++ argument)
      else
        match options.withTask (.script argument) with
        | .error message => .mistake message
        | .ok options => readArguments options rest

end LineScript
