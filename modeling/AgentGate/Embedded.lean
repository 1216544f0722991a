/-!
# Embedded expressions

A workflow value may embed an expression between a dollar sign with two opening braces and two
closing ones; its value is filled in when the workflow runs. The expressions embedded here read the
outputs of jobs and steps.
-/

namespace AgentGate.Embedded

/-- A value that consists of one embedded expression. -/
def embed (expression : String) : String :=
  "$\x7b\x7b " ++ expression ++ " \x7d\x7d"

/-- An output of a job that the reading job needs. -/
def jobOutput (job output : String) : String :=
  "needs." ++ job ++ ".outputs." ++ output

/-- An output of an earlier step of the same job. -/
def stepOutput (step output : String) : String :=
  "steps." ++ step ++ ".outputs." ++ output

end AgentGate.Embedded
