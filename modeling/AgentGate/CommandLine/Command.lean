import AgentGate.CommandLine.Form
import AgentGate.Permission.Audit
import AgentGate.Storage.Documents

/-!
# Commands

The commands of the compiler, and how they are written on a command line.

- `grantOfText`: a granted permission from its text.
- `Invocation.ofArguments`: what some arguments ask for.
-/

namespace AgentGate.CommandLine

/-! ## The commands -/

/-- Write a file with the default settings. -/
structure InitCommand where
  path : String := "compiler.toml"
  /-- Whether a file that is there is replaced. -/
  force : Bool := false

/-- Compile a workflow. -/
structure CompileCommand where
  request : CompileRequest := { workflow := "" }
  /-- Whether a chart of the jobs is printed. -/
  mermaid : Bool := false

/-- List the manifest of a type, or of all types. -/
structure ManifestCommand where
  type : Option String := none
  json : Bool := false

/-- Audit granted permissions. -/
structure AuditCommand where
  toolsets : List String := []
  readOnly : Bool := false
  granted : Permissions := ∅
  strict : Bool := false

/-- A command. -/
inductive Command where
  | init (command : InitCommand)
  | compile (command : CompileCommand)
  | manifest (command : ManifestCommand)
  | permissions (command : AuditCommand)

/-- What a command line asks for. -/
inductive Invocation where
  | version
  | run (command : Command)

/-! ## Values -/

/-- A granted permission: a scope and a level with an equals sign between them. -/
def grantOfText (text : String) : Except String (Scope × Level) :=
  let chars := text.toList
  let trimmed (part : List Char) : String := Text.trim (String.ofList part)
  match chars.dropWhile fun c => c ≠ '=' with
  | [] => .error ("expected scope=level, got '" ++ text ++ "'")
  | _ :: level => do
    let scope ← (Scope.ofName (trimmed (chars.takeWhile fun c => c ≠ '='))).mapError
      UnknownName.message
    let level ← (Level.ofName (trimmed level)).mapError UnknownName.message
    return (scope, level)

/-- A path, which is not empty. -/
def pathOfText (parameter text : String) : Except Misuse String :=
  if text = "" then .error (.missingValue parameter) else .ok text

/-! ## The forms of the commands -/

namespace InitCommand

/-- The form of the command. -/
def form : Form InitCommand where
  parameters :=
    [{ long := "force", short := some 'f', set := fun _ c => .ok { c with force := true } }]
  operands := [fun text c => do return { c with path := ← pathOfText "[PATH]" text }]

end InitCommand

namespace CompileCommand

/-- A parameter for a path. -/
def pathParameter (long : String) (short : Char) (value : String)
    (set : CompileRequest → String → CompileRequest) : Parameter CompileCommand where
  long := long
  short := some short
  value := some value
  set text c := do
    let path ← pathOfText ("--" ++ long ++ " <" ++ value ++ ">") text
    return { c with request := set c.request path }

/-- The form of the command. -/
def form : Form CompileCommand where
  parameters :=
    [pathParameter "config" 'c' "CONFIG" fun request path => { request with config := some path },
      pathParameter "output" 'o' "OUTPUT" fun request path => { request with output := some path },
      { long := "strict"
        set := fun _ c => .ok { c with request := { c.request with strict := true } } },
      { long := "mermaid", set := fun _ c => .ok { c with mermaid := true } }]
  operands := [fun text c => do
    return { c with request := { c.request with workflow := ← pathOfText "<WORKFLOW>" text } }]

/-- The command has to name a workflow. -/
def check (c : CompileCommand) : Except Misuse CompileCommand :=
  if c.request.workflow = "" then .error (.missing "<WORKFLOW>") else .ok c

end CompileCommand

namespace ManifestCommand

/-- The form of the command. -/
def form : Form ManifestCommand where
  parameters := [{ long := "json", set := fun _ c => .ok { c with json := true } }]
  operands := [fun text c => .ok { c with type := some text }]

end ManifestCommand

namespace AuditCommand

/-- The form of the command. A grant that is repeated counts as given last. -/
def form : Form AuditCommand where
  parameters :=
    [{ long := "toolsets"
       value := some "TOOLSETS"
       repeats := true
       set := fun text c => .ok { c with toolsets := c.toolsets ++ Text.pieces ',' text } },
      { long := "read-only", set := fun _ c => .ok { c with readOnly := true } },
      { long := "grant"
        value := some "GRANTS"
        repeats := true
        set := fun text c =>
          match grantOfText text with
          | .ok (scope, level) => .ok { c with granted := c.granted.set scope level }
          | .error reason => .error (.invalidValue text "--grant <GRANTS>" reason) },
      { long := "strict", set := fun _ c => .ok { c with strict := true } }]
  operands := []

/-- The command has to name toolsets. -/
def check (c : AuditCommand) : Except Misuse AuditCommand :=
  if c.toolsets.isEmpty then .error (.missing "--toolsets <TOOLSETS>") else .ok c

end AuditCommand

/-! ## Command lines -/

/-- The command of a name with some arguments. -/
def Command.ofArguments (name : String) (arguments : List String) : Except Halt Command :=
  match name with
  | "init" => (InitCommand.form.fill {} arguments).map .init
  | "compile" => do
    let command ← CompileCommand.form.fill {} arguments
    (command.check.mapError .misuse).map .compile
  | "manifest" => (ManifestCommand.form.fill {} arguments).map .manifest
  | "permissions" => do
    let command ← AuditCommand.form.fill {} arguments
    (command.check.mapError .misuse).map .permissions
  | "help" => .error .help
  | _ => .error (.misuse (.unknownCommand name))

/-- What some arguments ask for. -/
def Invocation.ofArguments : List String → Except Halt Invocation
  | [] => .error .help
  | first :: rest =>
    match first.toList with
    | '-' :: 'V' :: _ => .ok .version
    | '-' :: 'h' :: _ => .error .help
    | '-' :: _ :: _ =>
      if first = "--version" then .ok .version
      else if first = "--help" then .error .help
      else .error (.misuse (.unexpected first))
    | _ => (Command.ofArguments first rest).map .run

end AgentGate.CommandLine
