/-!
# Forms of command lines

A form lists the parameters and operands of a command, each with what it does to a draft of the
command. Arguments are taken from left to right. The value of a parameter that stands in an argument
of its own is only looked at when the next parameter comes or the arguments end, so that an argument
that the form does not know is reported first.

- `Form.fill`: the draft that some arguments make.
- `Misuse.message`: the text of what is wrong with arguments.
-/

namespace AgentGate.CommandLine

/-- What is wrong with arguments. -/
inductive Misuse where
  | unknownCommand (name : String)
  | unexpected (argument : String)
  | unexpectedValue (value parameter : String)
  | missingValue (parameter : String)
  | repeated (parameter : String)
  | missing (operand : String)
  | invalidValue (value parameter reason : String)
  deriving DecidableEq, Repr

namespace Misuse

/-- The text of a misuse. -/
def message : Misuse → String
  | unknownCommand name => "unrecognized subcommand '" ++ name ++ "'"
  | unexpected argument => "unexpected argument '" ++ argument ++ "' found"
  | unexpectedValue value parameter =>
    "unexpected value '" ++ value ++ "' for '" ++ parameter ++ "' found; no more were expected"
  | missingValue parameter => "a value is required for '" ++ parameter ++ "' but none was supplied"
  | repeated parameter => "the argument '" ++ parameter ++ "' cannot be used multiple times"
  | missing operand =>
    "the following required arguments were not provided:\n  " ++ operand
  | invalidValue value parameter reason =>
    "invalid value '" ++ value ++ "' for '" ++ parameter ++ "': " ++ reason

end Misuse

/-- Why arguments make no command. -/
inductive Halt where
  | help
  | misuse (misuse : Misuse)
  deriving DecidableEq, Repr

/-- A parameter with a name, and what it does to a draft. A parameter without value is set with the
empty text. -/
structure Parameter (α : Type) where
  long : String
  short : Option Char := none
  /-- The name of the value in reports. -/
  value : Option String := none
  repeats : Bool := false
  set : String → α → Except Misuse α

/-- The parameter as reports show it. -/
def Parameter.shown {α : Type} (parameter : Parameter α) : String :=
  "--" ++ parameter.long ++
    match parameter.value with
    | some value => " <" ++ value ++ ">"
    | none => ""

/-- What a command takes. -/
structure Form (α : Type) where
  parameters : List (Parameter α)
  /-- What operands do, in their order. -/
  operands : List (String → α → Except Misuse α)

/-- How far the arguments have been taken. -/
structure Filling (α : Type) where
  draft : α
  /-- The parameters that have been set. -/
  given : List String := []
  /-- The last parameter, with its value if that has come, when it stands in an argument of its
  own. -/
  pending : Option (Parameter α × Option String) := none
  /-- How many operands have come. -/
  operands : Nat := 0
  /-- Whether all further arguments are operands. -/
  operandsOnly : Bool := false

namespace Filling

variable {α : Type}

/-- Set a parameter. -/
def apply (filling : Filling α) (parameter : Parameter α) (value : String) :
    Except Misuse (Filling α) := do
  if filling.given.contains parameter.long && !parameter.repeats then
    throw (.repeated parameter.shown)
  return { filling with
    draft := ← parameter.set value filling.draft
    given := parameter.long :: filling.given }

/-- Set the pending parameter, if there is one. -/
def settle (filling : Filling α) : Except Misuse (Filling α) :=
  match filling.pending with
  | none => .ok filling
  | some (parameter, some value) => { filling with pending := none }.apply parameter value
  | some (parameter, none) => .error (.missingValue parameter.shown)

/-- A parameter with a value in the same argument, or without a value. -/
def parameter (filling : Filling α) (parameter : Parameter α) (value : String) :
    Except Halt (Filling α) :=
  (do (← filling.settle).apply parameter value).mapError .misuse

/-- A parameter whose value is to come. -/
def await (filling : Filling α) (parameter : Parameter α) : Except Halt (Filling α) :=
  (do return { ← filling.settle with pending := some (parameter, none) }).mapError .misuse

/-- An argument that is no parameter: the value of the pending one, or an operand. -/
def plain (form : Form α) (filling : Filling α) (argument : String) : Except Halt (Filling α) :=
  match filling.pending, filling.operandsOnly with
  | some (parameter, none), false =>
    .ok { filling with pending := some (parameter, some argument) }
  | _, _ =>
    match form.operands[filling.operands]? with
    | none => .error (.misuse (.unexpected argument))
    | some set =>
      (do
        let filling ← filling.settle
        return { filling with
          draft := ← set argument filling.draft
          operands := filling.operands + 1 }).mapError .misuse

/-- A parameter by its long name, with what follows an equals sign. -/
def long (form : Form α) (filling : Filling α) (name : String) (attached : Option String) :
    Except Halt (Filling α) :=
  match form.parameters.find? fun parameter => parameter.long = name, attached with
  | some parameter, some value =>
    if parameter.value.isSome then filling.parameter parameter value
    else .error (.misuse (.unexpectedValue value parameter.shown))
  | some parameter, none =>
    if parameter.value.isSome then filling.await parameter else filling.parameter parameter ""
  | none, _ => .error (if name = "help" then .help else .misuse (.unexpected ("--" ++ name)))

/-- Parameters by their short names, of which the last may have its value behind it. -/
def short (form : Form α) (filling : Filling α) : List Char → Except Halt (Filling α)
  | [] => .ok filling
  | c :: rest =>
    match form.parameters.find? fun parameter => parameter.short = some c with
    | none => .error (if c = 'h' then .help else .misuse (.unexpected (String.ofList ['-', c])))
    | some parameter =>
      if parameter.value.isSome then
        match rest with
        | [] => filling.await parameter
        | '=' :: value => filling.parameter parameter (String.ofList value)
        | value => filling.parameter parameter (String.ofList value)
      else do short form (← filling.parameter parameter "") rest

/-- What one argument does. -/
def step (form : Form α) (filling : Filling α) (argument : String) : Except Halt (Filling α) :=
  if filling.operandsOnly then filling.plain form argument
  else
    match argument.toList with
    | ['-', '-'] => .ok { filling with operandsOnly := true }
    | '-' :: '-' :: rest =>
      let name := String.ofList (rest.takeWhile fun c => c ≠ '=')
      match rest.dropWhile fun c => c ≠ '=' with
      | [] => filling.long form name none
      | _ :: value => filling.long form name (some (String.ofList value))
    | '-' :: c :: rest => filling.short form (c :: rest)
    | _ => filling.plain form argument

end Filling

/-- The draft that some arguments make of a first one. -/
def Form.fill {α : Type} (form : Form α) (start : α) (arguments : List String) : Except Halt α := do
  let filling ← arguments.foldlM (Filling.step form) { draft := start }
  return (← filling.settle.mapError .misuse).draft

end AgentGate.CommandLine
