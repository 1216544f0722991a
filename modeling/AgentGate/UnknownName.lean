/-!
# Names that stand for nothing

Output types, permission scopes and permission levels are written as names. A text that is none of
the names of its kind is an `UnknownName`, which remembers the kind and the text.
-/

namespace AgentGate

/-- A text that was to name something and does not. -/
inductive UnknownName where
  | outputType (text : String)
  | scope (text : String)
  | level (text : String)
  deriving DecidableEq, Repr

/-- The text in which an unknown name is reported. -/
def UnknownName.message : UnknownName → String
  | .outputType text => "unknown safe output job type: " ++ text
  | .scope text => "unknown permission scope '" ++ text ++ "'"
  | .level text => "unknown permission level '" ++ text ++ "'"

end AgentGate
