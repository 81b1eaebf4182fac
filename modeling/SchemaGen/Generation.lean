import SchemaGen.Loader
import SchemaGen.Log
import SchemaGen.Response

/-!
# Runs of the generator

From an encoded request to an encoded response. A run that fails for a reason the caller can act on
says so in its response and ends with status one; unreadable options end it without a response.
-/

namespace SchemaGen.Generation

open Descriptor (Request)
open Wire (Bytes)

def requestRecords? (payload : Bytes) : Option (List Wire.Record) :=
  Descriptor.Standard.schema.decode? Descriptor.Standard.generatorRequest payload

def decodeRequest (payload : Bytes) : Except Failure Request :=
  match requestRecords? payload with
  | some records => .ok (Request.ofRecords Wire.Schema.maxDepth records)
  | none => .error .undecodableRequest

def loaded (request : Request) : Except Failure Loader :=
  match Loader.load { request } with
  | (.ok _, loader) => .ok loader
  | (.error failure, _) => .error failure

/-- The files generated for a request, in the order of its messages. The parameter is checked first;
another target may be given in place of the one that it selects. -/
def generate (request : Request) (renderer : Option Target) : Except Failure (List Artifact) := do
  let target ← Target.ofParameter request.parameter
  let loader ← loaded request
  let pairs ← loader.eligible.1
  return ModuleText.artifacts (renderer.getD target) pairs

def respond (request : Request) (renderer : Option Target) : Except Failure Response := do
  let files ← generate request renderer
  return { features := some Response.optionalFields, files }

structure Outcome where
  status : Nat
  response : Response
  deriving Repr, DecidableEq

def Outcome.output (outcome : Outcome) : Bytes := outcome.response.encode

/-- Whether the parameter of a payload, if it is a request, is UTF-8. -/
def hasTextParameter (payload : Bytes) : Bool :=
  (requestRecords? payload).all (Descriptor.lastIsText 2)

def hasTextTargets (payload : Bytes) : Bool :=
  (requestRecords? payload).all (Descriptor.areTexts 1)

/-- The end of a request for a name that is not UTF-8, which is looked for after the option
declarations have been loaded. -/
def refuseTargets (request : Request) : Except Failure Response := do
  let _ ← Target.ofParameter request.parameter
  let _ ← Options.Reader.ofFiles request.files
  .error .malformedText

def answer (payload : Bytes) : Except Failure Response := do
  let request ← decodeRequest payload
  if hasTextParameter payload then
    if hasTextTargets payload then respond request none else refuseTargets request
  else .error .malformedText

def run (payload : Bytes) : Except Failure Outcome :=
  match answer payload with
  | .ok response => .ok ⟨0, response⟩
  | .error failure =>
    if failure.isReported then .ok ⟨1, { error := some failure.message }⟩ else .error failure

-- ---------------------------------------------------------------------------
-- The log of a run
-- ---------------------------------------------------------------------------

def resolvedEntry (reader : Options.Reader) : Log.Entry :=
  ⟨.debug, .options,
    "Resolved " ++ toString reader.declarations.length ++ " Mongoose option extension(s)"⟩

def skippedEntry (file : SchemaFile) : Log.Entry :=
  ⟨.debug, .loader, "Skipping " ++ file.name ++ ": no messages or option declarations"⟩

def renderedEntry (target : Target) (file : SchemaFile) (message : SchemaMessage) : Log.Entry :=
  ⟨.debug, .plugin,
    "Rendered " ++ Names.outputFile message.name target.fileSuffix ++ " from " ++ file.name⟩

def failedEntry (failure : Failure) : Log.Entry := ⟨.error, .plugin, failure.message⟩

def progressEntries (target : Target) (request : Request) : List Log.Entry :=
  match Loader.load { request } with
  | (.error _, loader) => loader.reader.toList.map resolvedEntry
  | (.ok _, loader) =>
    loader.reader.toList.map resolvedEntry ++
      match loader.requestedFiles.1 with
      | .error _ => []
      | .ok files =>
        (files.filter SchemaFile.isSkipped).map skippedEntry ++
          (SchemaFile.eligible files).map fun pair => renderedEntry target pair.1 pair.2

def logEntries (payload : Bytes) : List Log.Entry :=
  let progress :=
    match decodeRequest payload with
    | .error _ => []
    | .ok request =>
      match Target.ofParameter request.parameter with
      | .error _ => []
      | .ok target => progressEntries target request
  match answer payload with
  | .ok _ => progress
  | .error failure => progress ++ [failedEntry failure]

end SchemaGen.Generation
