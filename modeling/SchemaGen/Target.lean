import SchemaGen.Failure
import SchemaGen.Parameter

/-!
# Targets

The two flavours of generated modules and how a request selects one.
-/

namespace SchemaGen

inductive Target where
  | typescript
  | javascript
  deriving Repr, DecidableEq

namespace Target

def name : Target → String
  | typescript => "ts"
  | javascript => "js"

def fileSuffix : Target → String
  | typescript => ".ts"
  | javascript => ".js"

/-- Whether modules export by declaration rather than by assignment. -/
def usesModules : Target → Bool
  | typescript => true
  | javascript => false

def ofName (name : String) : Except Failure Target :=
  if name = "ts" then .ok typescript
  else if name = "js" then .ok javascript
  else .error (.unsupportedTarget name)

/-- The target of a parameter: the value of `target` in lower case, `ts` when there is none or it is
empty. -/
def ofParameter (parameter : Option String) : Except Failure Target :=
  match (Parameter.parse (parameter.getD "")).get? "target" with
  | none => .ok typescript
  | some value => if value = "" then .ok typescript else ofName (Text.lower value)

end Target

end SchemaGen
