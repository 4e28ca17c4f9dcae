/-
The program: it runs a command line against the real file system and carries out the events of the
run.
-/

import LineScript.Command.Run

namespace LineScript

/-- Why the system refused, in the words and with the number it gives. -/
def systemMessage (error : IO.Error) : String :=
  match error with
  | .noFileOrDirectory _ code details => details ++ " (os error " ++ toString code ++ ")"
  | .inappropriateType _ code details => details ++ " (os error " ++ toString code ++ ")"
  | .permissionDenied _ code details => details ++ " (os error " ++ toString code ++ ")"
  | .otherError code details => details ++ " (os error " ++ toString code ++ ")"
  | other => toString other

/-- The bytes of a real file. -/
def readReal (path : String) : IO (Except String ByteArray) := do
  try
    return .ok (← IO.FS.readBinFile path)
  catch error =>
    return .error (systemMessage error)

/-- Whether a path of the real file system leads to a file. -/
def isRealFile (path : String) : IO Bool := do
  try
    let metadata ← ((← IO.currentDir) / path).metadata
    return metadata.type == .file
  catch _ =>
    return false

/-- The real file system. -/
def realFiles : Files IO where
  isFile := isRealFile
  read := readReal

/-- Carries out an event on the standard output. -/
def perform (output : IO.FS.Stream) : Event → IO Unit
  | .write bytes => output.write bytes
  | .flush => output.flush
  | .pause milliseconds => IO.sleep milliseconds.toUInt32

/-- Whether reports of errors are coloured: when it is forced, or else on a terminal unless colours
are turned off. -/
def wantsColour (output : IO.FS.Stream) : IO Bool := do
  match ← IO.getEnv "CLICOLOR_FORCE" with
  | some value => if value != "0" then return true
  | none => pure ()
  if (← IO.getEnv "NO_COLOR").isSome then return false
  if (← IO.getEnv "CLICOLOR") == some "0" then return false
  output.isTty

end LineScript

open LineScript in
/-- Runs the command line. -/
def main (arguments : List String) : IO UInt32 := do
  let output ← IO.getStdout
  let directory ← IO.currentDir
  let outcome ← runCommand realFiles directory.toString (← wantsColour output) arguments
  outcome.events.forM (perform output)
  output.flush
  (← IO.getStderr).putStr outcome.errorText
  return outcome.exitCode.toUInt32
