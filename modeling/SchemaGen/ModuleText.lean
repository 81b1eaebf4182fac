import SchemaGen.Target
import SchemaGen.TargetType
import SchemaGen.Text.SingleQuoted

/-!
# Modules

The text of a generated schema module.
-/

namespace SchemaGen

structure Artifact where
  name : String
  content : String
  deriving Repr, DecidableEq

namespace ModuleText

def generator : String := "protoc-gen-mongoose"

def version : String := "v1.0.0"

def origin (file : SchemaFile) : String :=
  match file.package with
  | none => "syntax " ++ file.dialect
  | some package =>
    if package = "" then "syntax " ++ file.dialect
    else "package " ++ package ++ ", syntax " ++ file.dialect

def header (file : SchemaFile) : List String := [
  "// @generated by " ++ generator ++ " " ++ version,
  "// @generated from file " ++ file.name ++ " (" ++ origin file ++ ")",
  "/* eslint-disable */"]

def importLine (target : Target) : String :=
  if target.usesModules then "import \x7b Schema \x7d from 'mongoose';"
  else "const \x7b Schema \x7d = require('mongoose');"

/-- A field: its type alone, or a record of its type and its constraints. -/
def field (field : SchemaField) : String :=
  match field.flags.keys with
  | [] => field.name ++ ": " ++ field.typeExpression
  | keys =>
    let entries := ("type: " ++ field.typeExpression) :: keys.map (· ++ ": true")
    field.name ++ ": \x7b " ++ ", ".intercalate entries ++ " \x7d"

def fieldLines : List SchemaField → List String
  | [] => []
  | [last] => ["  " ++ field last]
  | next :: more => ("  " ++ field next ++ ",") :: fieldLines more

def schemaLines (target : Target) (message : SchemaMessage) : List String :=
  let declaration := "const " ++ Names.exported message.name ++ " = new Schema(\x7b"
  [if target.usesModules then "export " ++ declaration else declaration] ++
    fieldLines message.fields ++ [
    "\x7d, \x7b",
    "  collection: " ++ Text.SingleQuoted.encode message.collection ++ ",",
    "  timestamps: true",
    "\x7d);"]

def exportLines (target : Target) (message : SchemaMessage) : List String :=
  if target.usesModules then []
  else ["", "module.exports = \x7b " ++ Names.exported message.name ++ " \x7d;"]

def lines (target : Target) (file : SchemaFile) (message : SchemaMessage) : List String :=
  header file ++ ["", importLine target, ""] ++ schemaLines target message ++
    exportLines target message

def content (target : Target) (file : SchemaFile) (message : SchemaMessage) : String :=
  "\n".intercalate (lines target file message) ++ "\n"

def artifact (target : Target) (file : SchemaFile) (message : SchemaMessage) : Artifact where
  name := Names.outputFile message.name target.fileSuffix
  content := content target file message

def artifacts (target : Target) (pairs : List (SchemaFile × SchemaMessage)) : List Artifact :=
  pairs.map fun pair => artifact target pair.1 pair.2

end ModuleText

end SchemaGen
