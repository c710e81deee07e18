import StackMachine.CommandLine.Response

/-!
# The command

Carries out the answer to the command line.
-/

open StackMachine CommandLine

/-- Writes the file of an answer, then its two outputs, and returns its exit code. -/
def main (arguments : List String) : IO UInt32 := do
  match respond Registry.default arguments with
  | none => return 1
  | some response =>
    if let some (path, text) := response.file then
      IO.FS.writeFile path.text text
    (← IO.getStdout).putStr response.stdout
    (← IO.getStderr).putStr response.stderr
    return response.exit.toUInt32
