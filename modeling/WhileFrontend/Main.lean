import WhileFrontend.CommandLine.Run

/-!
# The program

Runs the front end on real files.
-/

namespace WhileFrontend.CommandLine

/-- The cause of a refusal by the operating system; error number 21 says that there is a directory
where a file is asked for. -/
def causeOf : IO.Error → Option FileFault
  | .noFileOrDirectory .. => some .notFound
  | .inappropriateType _ osCode _ => some (if osCode = 21 then .isDirectory else .notDirectory)
  | _ => none

/-- Carries out an action on the file at a path; a refusal with a known cause is an answer. -/
def withFile {α : Type} (path : String) (action : IO α) : IO (Except FileFault α) := do
  if path.contains '\x00' then return .error .nullCharacter
  else
    try return .ok (← action)
    catch e =>
      match causeOf e with
      | some fault => return .error fault
      | none => throw e

/-- The files of the operating system. -/
def realDisk : Disk IO where
  read path := withFile path do return (← IO.FS.readBinFile path).toList
  write path bytes := withFile path (IO.FS.writeBinFile path ⟨bytes.toArray⟩)

end WhileFrontend.CommandLine

open WhileFrontend.CommandLine in
/-- Runs the program on its arguments; gives its exit status. -/
def main (args : List String) : IO UInt32 := do
  let r ← runProgram realDisk args
  (← IO.getStdout).putStr r.stdout
  (← IO.getStderr).putStr r.stderr
  match r.ending with
  | .exit status => return .ofNat status
  | .unreported f =>
    (← IO.getStderr).putStrLn f.message
    return 1
