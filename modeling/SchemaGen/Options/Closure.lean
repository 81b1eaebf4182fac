import SchemaGen.Descriptor.Standard
import SchemaGen.Failure
import SchemaGen.OrderedMap

/-!
# Files behind the option declarations

The pool that option values are read with holds the standard descriptors, the files that declare
options, and what these import. A file is visited once; its imports come before it.
-/

namespace SchemaGen.Options

open Descriptor (File Pool)

structure Closure where
  visited : List String
  pool : Pool
  deriving Repr

namespace Closure

def start : Closure := ⟨[], Pool.empty⟩

/-- Adds a file whose imports have been visited. A file that cannot be written out is not added. -/
def addFile (closure : Closure) (name : String) (file : File) : Except Failure Closure :=
  if Descriptor.Standard.schema.complete Wire.Schema.maxWrittenDepth
      Descriptor.Standard.fileDescriptor file.toRecords then
    match closure.pool.add file with
    | .ok pool => .ok { closure with pool }
    | .error reason => .error (.unloadable name reason)
  else .error .incomplete

/-- Visits a file: marks it, visits its imports in order, then adds it. The standard descriptors
stand in for their file when there is none of that name. Each step down meets a file not visited
before, so `depth` need not exceed the number of files by more than one. The limit that a call stack
sets to the length of import chains is left out. -/
def visit (files : OrderedMap File) : (depth : Nat) → String → Closure → Except Failure Closure
  | 0, _, closure => .ok closure
  | depth + 1, name, closure =>
    if closure.visited.contains name then .ok closure
    else
      let marked : Closure := { closure with visited := closure.visited ++ [name] }
      match files.get? name with
      | none =>
        if name = Descriptor.Standard.fileName then
          .ok { marked with pool := Descriptor.Standard.pool }
        else .error (.missingImport name)
      | some file => do
        let after ← file.dependencies.foldlM
          (fun state dependency => visit files depth dependency state) marked
        after.addFile name file

/-- The pool of the standard descriptors and the named files with all that they import. -/
def load (files : OrderedMap File) (names : List String) : Except Failure Pool := do
  let depth := files.entries.length + 1
  let closure ← (Descriptor.Standard.fileName :: names).foldlM
    (fun state name => visit files depth name state) start
  return closure.pool

end Closure

end SchemaGen.Options
