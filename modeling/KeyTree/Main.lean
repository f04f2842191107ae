import KeyTree.Report.Basic
/-!
The command line: read the environment, draw random bytes, print the report.
-/

set_option autoImplicit false
set_option relaxedAutoImplicit false

namespace KeyTree.CommandLine

/-- Where the system keeps the variables that the process was started with, byte for byte. -/
def environmentFile : String := "/proc/self/environ"

/-- Random bytes enough for every draw of a report, rejected ones included. -/
def supplySize : USize := 4096

end KeyTree.CommandLine

open KeyTree CommandLine

def main : IO UInt32 := do
  let block ← IO.FS.readBinFile environmentFile
  let source ← IO.getRandomBytes supplySize
  let outcome := Report.outcome (.ofBlock block.toList) ⟨source.toList⟩
  for line in outcome.lines do
    IO.println line
  if let some line := outcome.errorLine? then
    IO.eprintln line
  return outcome.status
