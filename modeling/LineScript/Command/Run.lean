/-
The command line as a whole: what it writes to the two outputs, and its exit code.
-/

import LineScript.Command.Arguments
import LineScript.Files.Access

namespace LineScript

/-- The version of the program. -/
def versionText : String := "2.0.0"

/-- The lines that describe the command line. -/
def usageLines : List String :=
  ["TayoZanX " ++ versionText,
   "",
   "Usage: tzx [options] <script.tzx>",
   "       tzx [options] -e <code>",
   "",
   "Options:",
   "  --mode MODE      tree, vm or both (default: both)",
   "  --strict         Reject unrecognized lines",
   "  --config FILE    Use FILE instead of the nearest tayozanx.yaml",
   "  --disassemble    Print bytecode before running it on the VM",
   "  -e <code>        Run code given on the command line",
   "  --version, -V    Show version",
   "  --help, -h       Show this help message",
   "",
   "Examples:",
   "  tzx hello.tzx",
   "  tzx --mode tree game.tasx",
   "  tzx -e 'show 1 + 1'",
   "",
   "Set RUST_LOG=debug to trace lexing, parsing and compilation."]

/-- The description of the command line. -/
def usageText : String :=
  "\n".intercalate usageLines ++ "\n"

/-- What a command does: the events on its output, the text of its error output, and its exit
code. -/
structure Outcome where
  events : List Event
  errorText : String
  exitCode : Nat

/-! ### Reports of errors -/

/-- A text in a colour, if colours are wanted. -/
def coloured (colour : Bool) (style text : String) : String :=
  if colour then "\x1b[" ++ style ++ "m" ++ text ++ "\x1b[0m" else text

/-- The report of an error: its code and description, and a hint if there is one. -/
def ScriptError.report (colour : Bool) (error : ScriptError) : String :=
  let first := coloured colour "1;31" ("❌ Error " ++ error.code ++ ":") ++ " " ++ error.message
  match error.hint? with
  | some hint => first ++ "\n" ++ coloured colour "33" "💡 Hint:" ++ " " ++ hint ++ "\n"
  | none => first ++ "\n"

/-- The outcome of a run that was refused before it started. -/
def Outcome.failed (colour : Bool) (error : ScriptError) : Outcome :=
  ⟨[], error.report colour, 1⟩

/-- The outcome of a run. -/
def Outcome.ofReport (colour : Bool) (report : Report) : Outcome :=
  match report.error? with
  | some error => ⟨report.events, error.report colour, 1⟩
  | none => ⟨report.events, "", 0⟩

/-! ### Commands -/

variable {m : Type → Type} [Monad m]

/-- The directory where the search for settings starts: that of the script, or the working
directory for a snippet. -/
def Task.searchDirectory (task : Task) (workingDirectory : String) : String :=
  match task with
  | .script path => (Path.parent? path).getD "."
  | .snippet _ => workingDirectory

/-- The settings of a run: those of the file asked for, or else of the nearest one, or else the
standard ones. -/
def Options.settings (options : Options) (files : Files m) (workingDirectory : String) :
    m (Except SettingsError Settings) := do
  let path ←
    match options.settingsPath with
    | some path => pure (some path)
    | none => files.discover (options.task.searchDirectory workingDirectory)
  let loaded ←
    match path with
    | some path => do pure (← files.loadSettings path).value
    | none => pure (.ok .standard)
  return loaded.map fun settings => { settings with strict := settings.strict || options.strict }

/-- The source text of a task. -/
def Task.source (task : Task) (files : Files m) (settings : Settings) :
    m (Except ScriptError String) := do
  match task with
  | .script path => return (← files.readScript settings path).value
  | .snippet code => return .ok code

/-- Runs what the options ask for. -/
def Options.run [PatternEngine] (options : Options) (files : Files m) (workingDirectory : String)
    (colour : Bool) : m Outcome := do
  match ← options.settings files workingDirectory with
  | .error error => return .failed colour (.settings error)
  | .ok settings =>
    match ← options.task.source files settings with
    | .error error => return .failed colour error
    | .ok source =>
      return .ofReport colour (runSource .unlimited settings options.mode options.listing source)

/-- Runs a command line. -/
def runCommand [PatternEngine] (files : Files m) (workingDirectory : String) (colour : Bool)
    (arguments : List String) : m Outcome := do
  match readArguments .initial arguments with
  | .help => return ⟨[], usageText, 0⟩
  | .version => return ⟨[.write ("tzx " ++ versionText ++ "\n").toUTF8], "", 0⟩
  | .mistake message => return ⟨[], message ++ "\n" ++ usageText, 64⟩
  | .run options => options.run files workingDirectory colour

end LineScript
