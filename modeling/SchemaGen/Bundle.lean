import SchemaGen.FileSystem
import SchemaGen.Generation

/-!
# Generation from a descriptor set

Reads a set of file descriptors from a file, generates modules from it and writes them into a
directory. The directory is made before anything is generated, and nothing is written before
everything has been generated.
-/

namespace SchemaGen.Bundle

open Descriptor (File Request)
open Wire (Bytes Record)

inductive Failure where
  | noDirectory
  | file (failure : FileFailure)
  | undecodableSet
  /-- One of the wanted files is not given a name. -/
  | noName
  | generation (failure : SchemaGen.Failure)
  deriving Repr, DecidableEq

def Failure.message : Failure → String
  | noDirectory => "expected str, bytes or os.PathLike object, not list"
  | file failure => failure.message
  | undecodableSet => ""
  | noName => "bad argument type for built-in operation"
  | generation failure => failure.message

def setRecords? (content : Bytes) : Option (List (List Record)) :=
  (Descriptor.Standard.schema.decode? Descriptor.Standard.fileSet content).map
    (Descriptor.children (Wire.Schema.maxDepth - 1) 1)

def decodeSet? (content : Bytes) : Option (List File) :=
  (setRecords? content).map (·.map (File.ofRecords (Wire.Schema.maxDepth - 1)))

/-- Whether all files in an encoded descriptor set, if it is one, have names that are UTF-8. -/
def hasTextNames (content : Bytes) : Bool :=
  (setRecords? content).all (·.all (Descriptor.lastIsText 1))

/-- The request for the named files of a set, or for all of them when none is named. -/
def request (files : List File) (targets : List String) (language : String) : Request where
  targets := if targets.isEmpty then files.map File.nameText else targets
  parameter := some ("target=" ++ language)
  files := files

/-- The request for the wanted files of an encoded set, which all need names. -/
def requestFrom (content : Bytes) (targets : List (Option String)) (language : String) :
    Except Failure Request :=
  match decodeSet? content, targets.mapM id with
  | none, _ => .error .undecodableSet
  | some _, none => .error .noName
  | some files, some names =>
    if names.isEmpty && !hasTextNames content then .error (.generation .malformedText)
    else .ok (request files names language)

-- ---------------------------------------------------------------------------
-- Steps
-- ---------------------------------------------------------------------------

structure Storage (m : Type → Type) where
  read : Path → m Bytes
  makeDirectories : Path → m Unit
  write : Path → Bytes → m Unit
  /-- Goes on with a result, or ends with its failure. -/
  settle : {α : Type} → Except Failure α → m α

def Storage.writeAll {m : Type → Type} [Monad m] (storage : Storage m) (directory : Path)
    (artifacts : List Artifact) : m (List Path) :=
  artifacts.mapM fun artifact => do
    let path := directory.join (Path.ofString artifact.name)
    storage.write path artifact.content.toUTF8.data.toList
    return path

/-- Generates from the bundle at a path into a directory. Gives the paths written, in order. -/
def Storage.generate {m : Type → Type} [Monad m] (storage : Storage m) (bundle : Path)
    (targets : List (Option String)) (directory : Option Path) (language : String) :
    m (List Path) := do
  let directory ← storage.settle (directory.elim (.error .noDirectory) .ok)
  let content ← storage.read bundle
  let request ← storage.settle (requestFrom content targets language)
  storage.makeDirectories directory
  let artifacts ← storage.settle ((Generation.generate request none).mapError .generation)
  storage.writeAll directory artifacts

-- ---------------------------------------------------------------------------
-- File systems
-- ---------------------------------------------------------------------------

abbrev InFileSystem := ExceptT Failure (StateM FileSystem)

def inFileSystem : Storage InFileSystem where
  read path := fun fs =>
    match fs.readFile path with
    | .error fault => (.error (.file ⟨fault, path⟩), fs)
    | .ok content => (.ok content, fs)
  makeDirectories path := fun fs =>
    match fs.makeDirectories path with
    | (.error failure, after) => (.error (.file failure), after)
    | (.ok (), ready) => (.ok (), ready)
  write path content := fun fs =>
    match fs.writeFile path content with
    | .error fault => (.error (.file ⟨fault, path⟩), fs)
    | .ok written => (.ok (), written)
  settle result := fun fs => (result, fs)

def generate (fs : FileSystem) (bundle : Path) (targets : List (Option String))
    (directory : Option Path) (language : String) : Except Failure (List Path) × FileSystem :=
  inFileSystem.generate bundle targets directory language fs

end SchemaGen.Bundle
