import AgentGate.Permission.Toolset
import AgentGate.Table

/-!
# Audit of granted permissions

An audit compares what a job is granted with the least permissions that its toolsets need. A scope
granted below that level is *missing*, one granted above it is *excess*. With the keyword `all`
nothing counts as excess, and a list without a single name has nothing to compare with.

- `Permissions.audit`: the comparison, scope by scope.
- `Audit.message`: the text that reports it.
-/

namespace AgentGate

/-- The outcome of comparing a grant with what toolsets need. -/
structure Audit where
  /-- The least permissions that the toolsets need. -/
  required : Permissions
  /-- Scopes granted below the level they need, at that level. -/
  missing : Permissions
  /-- Scopes granted above the level they need, at the granted level. -/
  excess : Permissions
  /-- The missing scopes that each toolset needs. -/
  missingByToolset : Table (List Scope)
  /-- Whether excess was looked for. -/
  excessChecked : Bool

namespace Audit

/-- The audit of a list without toolsets. -/
def clean : Audit := ⟨∅, ∅, ∅, ∅, false⟩

/-- The scopes of `required` that are granted below their level. -/
def missingFrom (granted required : Permissions) : Permissions :=
  ⟨fun scope => (required.level? scope).filter fun level => granted.get scope < level⟩

/-- The scopes of `granted` that lie above what is required. -/
def excessOver (granted required : Permissions) : Permissions :=
  ⟨fun scope => (granted.level? scope).filter fun level => required.get scope < level⟩

/-- For each toolset that needs some of the missing scopes, those scopes. -/
def attribution (names : List String) (missing : Permissions) : Table (List Scope) :=
  Table.ofList <| names.filterMap fun name =>
    match Toolset.find? name with
    | some toolset =>
      match (missing.entries.map Prod.fst).filter toolset.touches with
      | [] => none
      | scopes => some (name, scopes)
    | none => none

/-- Whether anything is missing or in excess. -/
def hasIssues (audit : Audit) : Bool :=
  !audit.missing.isEmpty || !audit.excess.isEmpty

/-- Whether the grant cannot be accepted: something is missing, or something is in excess and
excess counts. -/
def rejects (audit : Audit) (strict : Bool) : Bool :=
  !audit.missing.isEmpty || (strict && !audit.excess.isEmpty)

/-! ## The report -/

/-- One line for a scope and its level. -/
def entryLine (lead : String) (entry : Scope × Level) : String :=
  lead ++ entry.1.name ++ ": " ++ entry.2.name

/-- The part of the report on missing scopes, with the table that would add them. -/
def missingSection (audit : Audit) : String :=
  let toolsetLines :=
    if audit.missingByToolset.isEmpty then []
    else "" :: "Required by toolsets:" :: audit.missingByToolset.entries.map fun entry =>
      "  - " ++ entry.1 ++ ": needs " ++ ", ".intercalate (entry.2.map Scope.name)
  "\n".intercalate <|
    ["ERROR: Missing required permissions for GitHub MCP toolsets:"]
      ++ audit.missing.entries.map (entryLine "  - ")
      ++ toolsetLines
      ++ ["", "Suggested fix: Add the following to your workflow frontmatter:", "permissions:"]
      ++ audit.missing.entries.map (entryLine "  ")

/-- The part of the report on scopes in excess, an error when strict. -/
def excessSection (audit : Audit) (strict : Bool) : String :=
  "\n".intercalate <|
    [(if strict then "ERROR" else "WARNING")
        ++ ": Over-provisioned permissions detected for GitHub MCP toolsets:"]
      ++ audit.excess.entries.map (fun entry =>
        entryLine "  - " entry ++ " (not required by configured toolsets)")
      ++ ["", "Principle of least privilege: Only grant permissions that are needed.",
        "Consider removing these permissions or adjusting your toolsets configuration."]

/-- The report, empty when there is nothing to report. -/
def message (audit : Audit) (strict : Bool) : String :=
  "\n\n".intercalate <|
    (if audit.missing.isEmpty then [] else [audit.missingSection])
      ++ (if audit.excess.isEmpty then [] else [audit.excessSection strict])

end Audit

/-- Compare a grant with what a list of toolsets needs. -/
def Permissions.audit (granted : Permissions) (toolsets : List String) (readOnly : Bool) : Audit :=
  if toolsets.all Text.allBlank then .clean
  else
    let names := Toolset.expand toolsets
    let required := Toolset.required names readOnly
    let missing := Audit.missingFrom granted required
    let excessChecked := !toolsets.any fun name => Text.trim name = "all"
    { required
      missing
      excess := if excessChecked then Audit.excessOver granted required else ∅
      missingByToolset := Audit.attribution names missing
      excessChecked }

end AgentGate
