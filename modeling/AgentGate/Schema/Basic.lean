import AgentGate.Json.Writer

/-!
# Schemas

A schema says which JSON values a document may hold. Checking a value gives all its violations; a
value in which a choice is made between schemas counts as a whole, so that no violation is reported
from inside it.

- `Schema.violations`: what is wrong with a value.
- `Violation.message`: the text of a violation.
- `Schema.report`: the texts of all violations, ascending.
-/

namespace AgentGate

/-- What a text has to be like. -/
inductive TextRule where
  | free
  | minLength (length : Nat)
  /-- Some ASCII letters, digits, underscores and hyphens, and nothing else. -/
  | identifier
  deriving DecidableEq, Repr

/-- Which values are valid. -/
inductive Schema where
  | boolean
  | text (rule : TextRule)
  | integer (minimum : Int)
  /-- One of some words. -/
  | word (words : List String)
  | list (item : Schema)
  /-- An object with some keys, of which some must be there. -/
  | record (required : List String) (fields : List (String × Schema))
  /-- An object with any keys, or with keys from a list, and values of one kind. -/
  | table (keys : Option (List String)) (value : Schema)
  /-- Exactly one of several schemas. -/
  | oneOf (options : List Schema)

/-- What is wrong with a value. -/
inductive Violation where
  | wrongType (found : Json) (type : String)
  | tooShort (found : Json) (length : Nat)
  | notMatching (found : Json) (pattern : String)
  | tooSmall (found : Json) (minimum : Int)
  | unknownWord (found : Json) (words : List String)
  | missingKey (key : String)
  | unexpectedKeys (keys : List String)
  | noOption (found : Json)
  | severalOptions (found : Json)

namespace Violation

/-- A few words in quotes; of more than three, the first two and the number of the others. -/
def candidates (words : List String) : String :=
  let quoted := words.map fun word => (Json.text word).compact
  match quoted with
  | [] => ""
  | [one] => one
  | [one, other] => one ++ " or " ++ other
  | [one, other, last] => one ++ ", " ++ other ++ " or " ++ last
  | one :: other :: rest =>
    one ++ ", " ++ other ++ " or " ++ toString rest.length ++ " other candidates"

/-- The text of a violation. -/
def message : Violation → String
  | wrongType found type => found.compact ++ " is not of type \"" ++ type ++ "\""
  | tooShort found length =>
    found.compact ++ " is shorter than " ++ toString length
      ++ if length = 1 then " character" else " characters"
  | notMatching found pattern => found.compact ++ " does not match \"" ++ pattern ++ "\""
  | tooSmall found minimum =>
    found.compact ++ " is less than the minimum of " ++ toString minimum
  | unknownWord found words => found.compact ++ " is not one of " ++ candidates words
  | missingKey key => (Json.text key).compact ++ " is a required property"
  | unexpectedKeys keys =>
    "Additional properties are not allowed ("
      ++ ", ".intercalate (keys.map fun key => "'" ++ key ++ "'")
      ++ (if keys.length = 1 then " was" else " were") ++ " unexpected)"
  | noOption found =>
    found.compact ++ " is not valid under any of the schemas listed in the 'oneOf' keyword"
  | severalOptions found =>
    found.compact ++ " is valid under more than one of the schemas listed in the 'oneOf' keyword"

end Violation

/-! ## Checking simple values -/

/-- What is wrong with a text under a rule. -/
def TextRule.violations (rule : TextRule) (value : String) : List Violation :=
  match rule with
  | free => []
  | minLength length =>
    if value.length < length then [.tooShort (.text value) length] else []
  | identifier =>
    if value ≠ "" ∧ value.toList.all fun c => c.isAlphanum || c = '_' || c = '-' then []
    else [.notMatching (.text value) "^[A-Za-z0-9_-]+$"]

namespace Schema

/-- Whether a number is an integer, however it is written. -/
def isInteger : Json → Bool
  | .int _ => true
  | .float value => value.isIntegral
  | _ => false

/-- Whether a value is a number below a bound. -/
def isBelow (bound : Int) : Json → Bool
  | .int value => value < bound
  | .float value => value.lt bound
  | _ => false

/-- What is wrong with a value that is to be an integer. The bound counts for every number. -/
def integerViolations (minimum : Int) (value : Json) : List Violation :=
  (if isInteger value then [] else [.wrongType value "integer"])
    ++ if isBelow minimum value then [.tooSmall value minimum] else []

/-- What is wrong with a value that is to be one of some words. -/
def wordViolations (words : List String) (value : Json) : List Violation :=
  match value with
  | .text found => if words.contains found then [] else [.unknownWord value words]
  | _ => [.unknownWord value words]

/-- What is wrong with the keys of an object, apart from its values. -/
def keyViolations (required known : List String) (members : List (String × Json)) :
    List Violation :=
  let missing := required.filter fun key => !(members.map Prod.fst).contains key
  let unexpected := (members.map Prod.fst).filter fun key => !known.contains key
  missing.map .missingKey ++ if unexpected.isEmpty then [] else [.unexpectedKeys unexpected]

/-! ## Checking all values -/

mutual

/-- What is wrong with a value. -/
def violations : Schema → Json → List Violation
  | boolean, value =>
    match value with
    | .bool _ => []
    | _ => [.wrongType value "boolean"]
  | text rule, value =>
    match value with
    | .text content => rule.violations content
    | _ => [.wrongType value "string"]
  | integer minimum, value => integerViolations minimum value
  | word words, value => wordViolations words value
  | list item, value =>
    match value with
    | .array items => items.flatMap fun value => item.violations value
    | _ => [.wrongType value "array"]
  | record required fields, value =>
    match value with
    | .object members =>
      keyViolations required (fields.map Prod.fst) members
        ++ members.flatMap fun member => fieldViolations fields member.1 member.2
    | _ => [.wrongType value "object"]
  | table keys item, value =>
    match value with
    | .object members =>
      members.flatMap fun member =>
        (match keys with
          | some words => wordViolations words (.text member.1)
          | none => [])
          ++ item.violations member.2
    | _ => [.wrongType value "object"]
  | oneOf options, value =>
    match validOptions options value with
    | 0 => [.noOption value]
    | 1 => []
    | _ => [.severalOptions value]

/-- What is wrong with the value of a key; a key that is not known is no matter of its value. -/
def fieldViolations : List (String × Schema) → String → Json → List Violation
  | [], _, _ => []
  | (name, schema) :: rest, key, value =>
    if key = name then schema.violations value else fieldViolations rest key value

/-- Under how many schemas a value is valid. -/
def validOptions : List Schema → Json → Nat
  | [], _ => 0
  | option :: rest, value =>
    (if (option.violations value).isEmpty then 1 else 0) + validOptions rest value

end

/-- Whether a value is valid. -/
def accepts (schema : Schema) (value : Json) : Bool :=
  (schema.violations value).isEmpty

/-- The texts of what is wrong with a value, ascending. -/
def report (schema : Schema) (value : Json) : List String :=
  ((schema.violations value).map Violation.message).mergeSort

end Schema

end AgentGate
