import AgentGate.Main
import AgentGate.Message
import AgentGate.Json.Reader
import AgentGate.Storage.Memory
import AgentGate.Proofs.Job.Order
import AgentGate.Proofs.Job.Fault
import AgentGate.Proofs.Plan.Declared
import AgentGate.Proofs.Manifest
import AgentGate.Proofs.Plan.Jobs
import AgentGate.Proofs.Reference
import AgentGate.Proofs.Plan.Needs
import AgentGate.Proofs.Plan.Layers
import AgentGate.Proofs.Handler
import AgentGate.Proofs.Plan.Accepted
import AgentGate.Proofs.Plan.Texts
import AgentGate.Proofs.Plan.Strings
import AgentGate.Proofs.Plan.Views
import AgentGate.Proofs.Plan.Effects
import AgentGate.Proofs.Plan.References
import AgentGate.Proofs.Plan.Environments
import AgentGate.Proofs.Plan.Permissions
import AgentGate.Proofs.Plan.Registration
import AgentGate.Proofs.Plan.Isolation
import AgentGate.Job.Store
import AgentGate.Proofs.Job.Store
import AgentGate.Proofs.Json.Reader
import AgentGate.Job.Reading
import AgentGate.Proofs.Job.Json
import AgentGate.Proofs.Plan.Conclusion
import AgentGate.Proofs.Json.Keyed
import AgentGate.Proofs.Schema.Agreement
import AgentGate.Proofs.Schema.Workflow
import AgentGate.Proofs.Plan.Strictness
import AgentGate.Proofs.Toolset
import AgentGate.Proofs.CommandLine.Audit
import AgentGate.Proofs.Reference.Scan
import AgentGate.Proofs.Reference.Jobs
import AgentGate.Proofs.Json.Path
import AgentGate.Proofs.Plan.Wiring
import AgentGate.Proofs.Plan.Offers
import AgentGate.Proofs.Permission.Level
import AgentGate.Proofs.Toolset.Required
import AgentGate.Proofs.Toolset.Spelling
import AgentGate.Proofs.Condition.Meaning
import AgentGate.Proofs.Permission.Attribution
import AgentGate.Proofs.Permission.Repair
import AgentGate.Proofs.Schema.Place
import AgentGate.Proofs.Schema.Target
import AgentGate.Proofs.Text.Mentions
import AgentGate.Proofs.Job.Texts
import AgentGate.Proofs.Condition.Leaves
import AgentGate.Proofs.Plan.Tokens
import AgentGate.Proofs.Handler.Variables
import AgentGate.Proofs.Text.Pieces
import AgentGate.Proofs.Handler.Lists
import AgentGate.Proofs.Handler.Modes
import AgentGate.Proofs.Plan.Identifier
import AgentGate.Proofs.Detection.Setup
import AgentGate.Proofs.Condition.Normal
import AgentGate.Proofs.Text.Bytes
import AgentGate.Proofs.Manifest.Fault
import AgentGate.Proofs.Message
import AgentGate.Proofs.Plan.PreActivation
import AgentGate.Proofs.Toolset.Expansion
import AgentGate.Proofs.Text.Slug
