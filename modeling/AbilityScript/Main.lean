import AbilityScript.CommandLine.Run

/-!
# The program

Runs the command line on the files of the system.
-/

set_option autoImplicit false

namespace AbilityScript

/-- An error of the system as an error about a file. -/
def FileError.ofSystem : IO.Error → FileError
  | .noFileOrDirectory .. => .missing
  | e => .refused (toString e)

/-- The files of the system. -/
def systemFiles : FileAccess IO where
  read name := do
    match ← (IO.FS.readBinFile (String.ofList name)).toBaseIO with
    | .ok data => return .ok data.toList
    | .error e => return .error (.ofSystem e)
  write name bs := do
    match ← (IO.FS.writeBinFile (String.ofList name) (ByteArray.mk bs.toArray)).toBaseIO with
    | .ok () => return .ok ()
    | .error e => return .error (.ofSystem e)

end AbilityScript

/-- Runs the command line and prints what it prints. -/
def main (args : List String) : IO UInt32 := do
  let o ← AbilityScript.run AbilityScript.systemFiles (args.map String.toList)
  (← IO.getStderr).putStr (String.ofList o.stderr)
  (← IO.getStdout).putStr (String.ofList o.stdout)
  return UInt32.ofNat o.exitCode
