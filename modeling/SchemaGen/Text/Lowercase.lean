import SchemaGen.Text.Case

/-!
# Lower-casing

Full lower-casing of text. It is character by character but for two letters: a dotted capital I
becomes two characters, and a capital sigma at the end of a word takes its final form.
-/

namespace SchemaGen.Text

def startsCased (text : List Char) : Bool :=
  (text.dropWhile isCaseIgnorable).head?.any isCased

/-- Whether a letter stands last in its word: a cased character precedes it and none follows.
`before` is the preceding text, nearest character first. -/
def endsWord (before after : List Char) : Bool :=
  startsCased before && !startsCased after

def lowerAt (before : List Char) (c : Char) (after : List Char) : List Char :=
  if c = 'Σ' then [if endsWord before after then 'ς' else 'σ']
  else if c = 'İ' then ['i', Char.ofNat 0x307]
  else [lowerChar c]

def lowerFrom : (before : List Char) → List Char → List Char
  | _, [] => []
  | before, c :: after => lowerAt before c after ++ lowerFrom (c :: before) after

def lowerChars (text : List Char) : List Char := lowerFrom [] text

def lower (text : String) : String := String.ofList (lowerChars text.toList)

end SchemaGen.Text
