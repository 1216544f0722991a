import AgentGate.CommandLine.Report

/-!
# The compiler as a program

The operations of the machine's file system, and the run of the program on its arguments.
-/

namespace AgentGate

/-- An operation of the machine with the description of its failure. -/
def described {α : Type} (operation : IO α) : IO (Except String α) := do
  match ← operation.toBaseIO with
  | .ok value => return .ok value
  | .error error => return .error (toString error)

/-- The file system of the machine. -/
def machine : Storage IO where
  isPresent path := return (← described (IO.FS.realPath path)).toBool
  read path := described (IO.FS.readFile path)
  createDirectories path := described (IO.FS.createDirAll path)
  write path text := described (IO.FS.writeFile path text)
  rename source target := described (IO.FS.rename source target)

end AgentGate

/-- Run the program. -/
def main (arguments : List String) : IO UInt32 := do
  let report ← AgentGate.CommandLine.Report.ofArguments AgentGate.machine arguments
  (← IO.getStdout).putStr report.stdout
  (← IO.getStderr).putStr report.stderr
  return report.code.toUInt32
