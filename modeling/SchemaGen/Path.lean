import SchemaGen.Text.Blank

/-!
# Paths

Paths as a list of names below a start, which is the current directory or a root. Empty names and
single dots are dropped; a name of two dots stays.
-/

namespace SchemaGen

/-- Where a path starts. Exactly two slashes at the front make a root of their own. -/
inductive Anchor where
  | current
  | root
  | doubleRoot
  deriving Repr, DecidableEq

structure Path where
  anchor : Anchor
  names : List String
  deriving Repr, DecidableEq

namespace Path

def anchorOf : List Char → Anchor
  | '/' :: '/' :: '/' :: _ => .root
  | '/' :: '/' :: _ => .doubleRoot
  | '/' :: _ => .root
  | _ => .current

def ofString (text : String) : Path where
  anchor := anchorOf text.toList
  names := ((Text.pieces (· == '/') text.toList).filter
    fun name => name != [] && name != ['.']).map String.ofList

/-- A path taken from a directory; one with a root of its own stands for itself. -/
def join (directory path : Path) : Path :=
  match path.anchor with
  | .current => { directory with names := directory.names ++ path.names }
  | _ => path

def anchorText : Anchor → String
  | .current => ""
  | .root => "/"
  | .doubleRoot => "//"

def text (path : Path) : String :=
  match path.anchor, path.names with
  | .current, [] => "."
  | anchor, names => anchorText anchor ++ "/".intercalate names

end Path

end SchemaGen
