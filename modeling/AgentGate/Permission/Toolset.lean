import AgentGate.Permission.Basic
import AgentGate.Text.Blank

/-!
# Toolsets

The agent's GitHub tool offers toolsets, and each needs some scopes for reading and some for
writing. A workflow names toolsets in a list, where `default` stands for five of them and `all` for
every known one.

- `Toolset.known`: the table of toolsets.
- `Toolset.expand`: the names that a list stands for, each once, in the order of first mention.
- `Toolset.required`: the least permissions with which the named toolsets work.
-/

namespace AgentGate

/-- The scopes that one toolset reads and those that it writes. -/
structure Toolset where
  name : String
  reads : List Scope
  writes : List Scope
  deriving DecidableEq, Repr

namespace Toolset

open Scope in
/-- The toolsets that exist. -/
def known : List Toolset :=
  [⟨"context", [], []⟩,
    ⟨"repos", [contents], [contents]⟩,
    ⟨"issues", [issues], [issues]⟩,
    ⟨"pull_requests", [pullRequests], [pullRequests]⟩,
    ⟨"actions", [actions], []⟩,
    ⟨"code_security", [securityEvents], [securityEvents]⟩,
    ⟨"dependabot", [securityEvents], []⟩,
    ⟨"discussions", [discussions], [discussions]⟩,
    ⟨"experiments", [], []⟩,
    ⟨"gists", [], []⟩,
    ⟨"labels", [issues], [issues]⟩,
    ⟨"notifications", [], []⟩,
    ⟨"orgs", [], []⟩,
    ⟨"projects", [repositoryProjects], [repositoryProjects]⟩,
    ⟨"secret_protection", [securityEvents], []⟩,
    ⟨"security_advisories", [securityEvents], [securityEvents]⟩,
    ⟨"stargazers", [], []⟩,
    ⟨"users", [], []⟩,
    ⟨"search", [], []⟩]

/-- What the word `default` stands for. -/
def defaultNames : List String :=
  ["context", "repos", "issues", "pull_requests", "users"]

/-- The toolset of a name. -/
def find? (name : String) : Option Toolset :=
  known.find? fun toolset => toolset.name = name

/-- What one entry of a list stands for: nothing when it is blank, several names when it is a
keyword, and itself without surrounding blanks otherwise. -/
def expandEntry (entry : String) : List String :=
  let name := Text.trim entry
  if name = "" then []
  else if name = "default" then defaultNames
  else if name = "all" then known.map Toolset.name
  else [name]

/-- The names that a list stands for, each once, in the order of first mention. -/
def expand (raw : List String) : List String :=
  (raw.flatMap expandEntry).eraseDups

/-- The least permissions with which one toolset works. -/
def permissions (toolset : Toolset) (readOnly : Bool) : Permissions :=
  let reading := Permissions.ofList (toolset.reads.map fun scope => (scope, Level.read))
  if readOnly then reading
  else toolset.writes.foldl (fun p scope => p.set scope Level.write) reading

/-- Whether the toolset needs the scope at all. -/
def touches (toolset : Toolset) (scope : Scope) : Bool :=
  toolset.reads.contains scope || toolset.writes.contains scope

/-- The least permissions with which all the named toolsets work; unknown names need nothing. -/
def required (names : List String) (readOnly : Bool) : Permissions :=
  names.foldl
    (fun p name =>
      match find? name with
      | some toolset => p.merge (toolset.permissions readOnly)
      | none => p)
    ∅

end Toolset

end AgentGate
