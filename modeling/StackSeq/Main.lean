import StackSeq.CommandLine

/-!
# The program

Reads the files that the command line names, and prints.
-/

namespace StackSeq

/-- What is found under the name of a file. -/
def readFile (name : String) : IO FileContent := do
  try
    return FileContent.ofBytes (← IO.FS.readBinFile name)
  catch
    | .noFileOrDirectory .. => return .missing
    | _ => return .unreadable

end StackSeq

open StackSeq

def main (words : List String) : IO UInt32 := do
  let outcome ←
    match Command.parse? words with
    | none => pure Command.misused
    | some command => do
      let contents ← command.files.mapM fun name => return (name, ← readFile name)
      pure (command.run fun name => (contents.lookup name).getD .missing)
  (← IO.getStdout).putStr outcome.out
  (← IO.getStderr).putStr outcome.err
  return outcome.code
