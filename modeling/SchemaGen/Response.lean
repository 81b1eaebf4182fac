import SchemaGen.Descriptor.Coding
import SchemaGen.ModuleText

/-!
# Responses

What a code generator hands back: an error, or generated files with the features it supports. The
fields are written by number, and a file always has both its name and its content. Reading sets no
bound on how long a text or a file is.
-/

namespace SchemaGen

structure Response where
  error : Option String := none
  features : Option UInt64 := none
  files : List Artifact := []
  deriving Repr, DecidableEq

namespace Response

open Wire (Record Bytes)
open Descriptor (textRecord textRecord? messageRecord)

def optionalFields : UInt64 := 1

def fileRecord (file : Artifact) : Record :=
  messageRecord 15 [textRecord 1 file.name, textRecord 15 file.content]

def toRecords (response : Response) : List Record :=
  textRecord? 1 response.error ++ response.features.toList.map (.varint 2 ·) ++
    response.files.map fileRecord

def encode (response : Response) : Bytes := Record.encodeAll response.toRecords

def lastText? (number : Nat) (records : List Record) : Option (Option String) :=
  match (Record.contents number records).getLast? with
  | none => some none
  | some content => (Wire.text? content).map some

def fileOf? (content : Bytes) : Option Artifact := do
  let records ← Record.readWithin content.length Wire.Schema.maxDepth content
  let name ← lastText? 1 records
  let content ← lastText? 15 records
  return ⟨name.getD "", content.getD ""⟩

def decode? (input : Bytes) : Option Response := do
  let records ← Record.readWithin input.length Wire.Schema.maxDepth input
  let error ← lastText? 1 records
  let files ← (Record.contents 15 records).mapM fileOf?
  return { error, features := (Record.varints 2 records).getLast?, files }

end Response

end SchemaGen
