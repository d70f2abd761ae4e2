import Signpost.CommandLine

/-! # The program -/

namespace Signpost

/-- The contents of a file, if it can be read as text. -/
def contents (name : String) : IO (Option String) := do
  try
    return some (← IO.FS.readFile name)
  catch _ =>
    return none

end Signpost

open Signpost in
def main (args : List String) : IO UInt32 := do
  let answer ← CommandLine.run contents args
  (← IO.getStdout).putStr answer.output
  (← IO.getStderr).putStr answer.complaint
  return answer.status.toUInt32
