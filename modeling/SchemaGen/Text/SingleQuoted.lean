/-!
# Single-quoted literals

The string literals of the generated modules. `encode` writes a text between single quotes on one
line; `read` is the reader of such literals in the module's language.
-/

namespace SchemaGen.Text.SingleQuoted

def quote : Char := '\x27'

def backslash : Char := '\x5c'

def hexDigit (n : Nat) : Char :=
  if n < 10 then Char.ofNat (0x30 + n) else Char.ofNat (0x57 + n)

def isLineTerminator (c : Char) : Bool :=
  c == '\n' || c == '\r' || c.toNat == 0x2028 || c.toNat == 0x2029

/-- Quote, backslash, controls and line terminators are escaped; every other character stands for
itself. -/
def encodeChar (c : Char) : List Char :=
  if c = backslash then [backslash, backslash]
  else if c = quote then [backslash, quote]
  else if c = '\n' then [backslash, 'n']
  else if c = '\r' then [backslash, 'r']
  else if c = '\t' then [backslash, 't']
  else if c.toNat = 0x2028 then [backslash, 'u', '2', '0', '2', '8']
  else if c.toNat = 0x2029 then [backslash, 'u', '2', '0', '2', '9']
  else if c.toNat < 0x20 ∨ c.toNat = 0x7f then
    [backslash, 'x', hexDigit (c.toNat / 16), hexDigit (c.toNat % 16)]
  else [c]

def encodeChars (text : List Char) : List Char :=
  quote :: text.flatMap encodeChar ++ [quote]

def encode (text : String) : String := String.ofList (encodeChars text.toList)

def hexValue? (c : Char) : Option Nat :=
  if '0' ≤ c ∧ c ≤ '9' then some (c.toNat - 0x30)
  else if 'a' ≤ c ∧ c ≤ 'f' then some (c.toNat - 0x57)
  else if 'A' ≤ c ∧ c ≤ 'F' then some (c.toNat - 0x37)
  else none

def hexNumber? (digits : List Char) : Option Nat :=
  digits.foldlM (fun n c => (hexValue? c).map (16 * n + ·)) 0

/-- The rest of a literal after its opening quote: the text up to the closing quote, and what
follows the quote. -/
def readBody : List Char → Option (List Char × List Char)
  | [] => none
  | c :: rest =>
    if c = quote then some ([], rest)
    else if c = backslash then
      match rest with
      | 'n' :: more => (readBody more).map fun r => ('\n' :: r.1, r.2)
      | 'r' :: more => (readBody more).map fun r => ('\r' :: r.1, r.2)
      | 't' :: more => (readBody more).map fun r => ('\t' :: r.1, r.2)
      | 'x' :: a :: b :: more => do
        let code ← hexNumber? [a, b]
        let r ← readBody more
        return (Char.ofNat code :: r.1, r.2)
      | 'u' :: a :: b :: d :: e :: more => do
        let code ← hexNumber? [a, b, d, e]
        let r ← readBody more
        return (Char.ofNat code :: r.1, r.2)
      | 'x' :: _ => none
      | 'u' :: _ => none
      | other :: more =>
        if isLineTerminator other then none
        else (readBody more).map fun r => (other :: r.1, r.2)
      | [] => none
    else if isLineTerminator c then none
    else (readBody rest).map fun r => (c :: r.1, r.2)

def read : List Char → Option (List Char × List Char)
  | [] => none
  | c :: rest => if c = quote then readBody rest else none

end SchemaGen.Text.SingleQuoted
