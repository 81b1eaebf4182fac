import SchemaGen.Path
import SchemaGen.Text.Shown
import SchemaGen.Wire.Varint

/-!
# File systems

A tree of directories and files, as the table of what stands at each location. Locations are the
names from the root; the root itself is always a directory. Operations take paths from a current
directory. Names and paths have a greatest length in bytes, and no path holds a null character.
-/

namespace SchemaGen

abbrev Location := List String

inductive Node where
  | directory
  | file (content : Wire.Bytes)
  deriving Repr, DecidableEq

inductive FileFault where
  | notFound
  | alreadyExists
  | notDirectory
  | isDirectory
  | nameTooLong
  | nullCharacter
  deriving Repr, DecidableEq

/-- The number and the wording of a fault. A null character is refused before a path gets as far as
having one. -/
def FileFault.code? : FileFault → Option (Nat × String)
  | notFound => some (2, "No such file or directory")
  | alreadyExists => some (17, "File exists")
  | notDirectory => some (20, "Not a directory")
  | isDirectory => some (21, "Is a directory")
  | nameTooLong => some (36, "File name too long")
  | nullCharacter => none

structure FileFailure where
  fault : FileFault
  path : Path
  deriving Repr, DecidableEq

def FileFailure.message (failure : FileFailure) : String :=
  match failure.fault.code? with
  | some (number, reason) =>
    "[Errno " ++ toString number ++ "] " ++ reason ++ ": " ++ Text.Shown.text failure.path.text
  | none => "embedded null byte"

structure FileSystem where
  current : Location
  nodes : List (Location × Node)
  deriving Repr, DecidableEq

namespace FileSystem

def node? (fs : FileSystem) (location : Location) : Option Node :=
  if location = [] then some .directory else fs.nodes.lookup location

/-- What stands below a location, by the names that lead there from it. -/
def below (fs : FileSystem) (location : Location) : List (List String × Node) :=
  fs.nodes.filterMap fun (place, node) =>
    if location.isPrefixOf place && place != location then some (place.drop location.length, node)
    else none

def putNode (location : Location) (node : Node) :
    List (Location × Node) → List (Location × Node)
  | [] => [(location, node)]
  | entry :: rest =>
    if entry.1 = location then (location, node) :: rest else entry :: putNode location node rest

def put (fs : FileSystem) (location : Location) (node : Node) : FileSystem :=
  { fs with nodes := putNode location node fs.nodes }

def maxNameBytes : Nat := 255

def maxPathBytes : Nat := 4095

/-- Goes down through directories by name; two dots lead up, at the root nowhere. -/
def walk (fs : FileSystem) : Location → List String → Except FileFault Location
  | location, [] => .ok location
  | location, name :: rest =>
    if name = ".." then walk fs location.dropLast rest
    else if maxNameBytes < name.utf8ByteSize then .error .nameTooLong
    else
      match fs.node? (location ++ [name]) with
      | some .directory => walk fs (location ++ [name]) rest
      | some (.file _) => .error .notDirectory
      | none => .error .notFound

def startOf (fs : FileSystem) (path : Path) : Location :=
  match path.anchor with
  | .current => fs.current
  | _ => []

/-- Why no path of this text can be followed, wherever it leads. -/
def pathFault? (path : Path) : Option FileFault :=
  if path.names.any (·.toList.contains '\x00') then some .nullCharacter
  else if maxPathBytes < path.text.utf8ByteSize then some .nameTooLong
  else none

/-- The location that the names of a path mean, whose directory must be there. A path that has no
last name of its own means a directory. -/
def follow (fs : FileSystem) (path : Path) : Except FileFault Location :=
  match path.names.getLast? with
  | none => .ok (fs.startOf path)
  | some ".." => fs.walk (fs.startOf path) path.names
  | some name => do
    let directory ← fs.walk (fs.startOf path) path.names.dropLast
    if maxNameBytes < name.utf8ByteSize then .error .nameTooLong else .ok (directory ++ [name])

def locate (fs : FileSystem) (path : Path) : Except FileFault Location :=
  match pathFault? path with
  | some fault => .error fault
  | none => fs.follow path

def isDirectory (fs : FileSystem) (path : Path) : Bool :=
  match fs.walk (fs.startOf path) path.names with
  | .ok _ => true
  | .error _ => false

def readFile (fs : FileSystem) (path : Path) : Except FileFault Wire.Bytes := do
  match fs.node? (← fs.locate path) with
  | none => .error .notFound
  | some .directory => .error .isDirectory
  | some (.file content) => .ok content

def writeFile (fs : FileSystem) (path : Path) (content : Wire.Bytes) :
    Except FileFault FileSystem := do
  let location ← fs.locate path
  match fs.node? location with
  | some .directory => .error .isDirectory
  | _ => .ok (fs.put location (.file content))

def makeDirectory (fs : FileSystem) (path : Path) : Except FileFault FileSystem := do
  let location ← fs.locate path
  match fs.node? location with
  | some _ => .error .alreadyExists
  | none => .ok (fs.put location .directory)

def ensureDirectory (fs : FileSystem) (path : Path) : Except FileFailure Unit × FileSystem :=
  match fs.makeDirectory path with
  | .ok made => (.ok (), made)
  | .error .notFound => (.error ⟨.notFound, path⟩, fs)
  | .error fault => (if fs.isDirectory path then .ok () else .error ⟨fault, path⟩, fs)

/-- Makes the directory with the given names, last one first, and those above it that are missing.
What was made above it stays when it cannot be made itself. -/
def makeUpTo (fs : FileSystem) (anchor : Anchor) : (reversed : List String) →
    Except FileFailure Unit × FileSystem
  | [] => fs.ensureDirectory ⟨anchor, []⟩
  | name :: above =>
    let path : Path := ⟨anchor, (name :: above).reverse⟩
    match fs.makeDirectory path with
    | .error .notFound =>
      match makeUpTo fs anchor above with
      | (.ok (), after) => after.ensureDirectory path
      | failed => failed
    | _ => fs.ensureDirectory path

def makeDirectories (fs : FileSystem) (path : Path) : Except FileFailure Unit × FileSystem :=
  fs.makeUpTo path.anchor path.names.reverse

end FileSystem

end SchemaGen
