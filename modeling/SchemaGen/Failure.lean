import SchemaGen.Descriptor.Pool

/-!
# Failures

Why a request is not served, and the text of each reason.
-/

namespace SchemaGen

inductive Failure where
  | undecodableRequest
  /-- The parameter or the name of a requested file is not UTF-8. -/
  | malformedText
  | unsupportedTarget (name : String)
  | missingImport (file : String)
  | unloadable (file : String) (reason : Descriptor.Refusal)
  | missingType (name : String)
  /-- Files are requested that the request lacks. -/
  | missingFiles (names : List String)
  /-- A file is asked for that has not been loaded. -/
  | notLoaded (file : String)
  /-- An option is declared for another message type than the one that it is read from. -/
  | mismatchedOption (type extension : String)
  | repeatedOption
  | missingKind
  | undecodableOptions
  /-- A message that has to be written lacks a required field or nests too deep. -/
  | incomplete
  deriving Repr, DecidableEq

namespace Failure

/-- The text of a reason. Where the decoder or the pool has more to say, its own wording would
follow a colon after the text given here; that wording is left out. -/
def message : Failure → String
  | undecodableRequest => "Unable to decode CodeGeneratorRequest"
  | malformedText => ""
  | unsupportedTarget name => "Unsupported target '" ++ name ++ "', expected one of: js, ts"
  | missingImport file =>
    "Option declarations depend on '" ++ file ++ "', which is missing from the request"
  | unloadable file _ => "Unable to load option declarations from '" ++ file ++ "'"
  | missingType name => name
  | missingFiles names => "Descriptor(s) not found in request: " ++ ", ".intercalate names
  | notLoaded file => file
  | mismatchedOption type extension =>
    "Extension doesn't match (" ++ type ++ " vs " ++ extension ++ ")"
  | repeatedOption => "Field is repeated. A singular method is required."
  | missingKind => "Expected code to be unreachable, but got: None"
  | undecodableOptions => ""
  | incomplete => ""

/-- Whether a run reports the failure in its response; the others end the run without one. -/
def isReported : Failure → Bool
  | malformedText => false
  | undecodableOptions => false
  | incomplete => false
  | missingKind => false
  -- `notLoaded` would not be reported either, but a run asks for no file that it has not loaded
  | _ => true

end Failure

end SchemaGen
