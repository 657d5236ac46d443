import ClockStep.Program

/-!
# The command line

Hands the arguments and the files that they name to the program and passes on what it leaves behind.
No core is linked here, so the program ends before it would read its input: it checks its arguments
and loads the images.
-/

namespace ClockStep.CommandLine

/-- The failure that the system reports under a number. -/
def failureOfCode (code : UInt32) : SystemError :=
  if code = 2 then .missing
  else if code = 20 then .notDirectory
  else if code = 21 then .isDirectory
  else if code = 36 then .nameTooLong
  else .other ("os error " ++ toString code)

/-- The failure behind an error of the system. -/
def failureOf : IO.Error → SystemError
  | .noFileOrDirectory _ code _ | .inappropriateType _ code _ | .invalidArgument _ code _
  | .permissionDenied _ code _ => failureOfCode code
  | .noSuchThing .. => .missing
  | error => .other (toString error)

/-- Adds a file that an option names. -/
def fetch (files : FileTree) (path : Option String) : IO FileTree := do
  match path with
  | none => return files
  | some path =>
    try
      return files.add path (.file (← IO.FS.readBinFile path).toList)
    catch error =>
      match failureOf error with
      | .missing => return files
      | .isDirectory => return files.add path .directory
      | cause => return files.add path (.refused cause)

/-- The files that the arguments name. -/
def fetchAll (arguments : List String) : IO FileTree := do
  match Options.parse arguments with
  | .ok o => fetch (← fetch .bare o.systemImage) (some o.binary)
  | .error _ => return .bare

end ClockStep.CommandLine

open ClockStep in
/-- Runs the program on the arguments behind its name. -/
def main (arguments : List String) : IO UInt32 := do
  let files ← CommandLine.fetchAll arguments
  match Program.run .none arguments files [] with
  | none => return 1
  | some outcome =>
    (← IO.getStdout).write (ByteArray.mk outcome.output)
    (← IO.getStderr).putStr outcome.errors
    return UInt32.ofNat outcome.code
