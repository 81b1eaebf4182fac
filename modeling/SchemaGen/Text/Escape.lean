import SchemaGen.Decimal.Literal

/-!
# Escaped bytes

A text that stands for bytes may hold escapes, each a backslash with what follows it: a letter or
mark, up to three octal digits, or `x` with hexadecimal digits. The number that the latter make is
counted in thirty-two bits and has to be a byte.
-/

namespace SchemaGen.Text

inductive EscapeState where
  | outside
  | opened
  | hexOpened
  | hex (value : UInt32)
  deriving Repr, DecidableEq

namespace EscapeState

def isPlainEscape (c : Char) : Bool :=
  "abfnrtv\\'\"?01234567".toList.contains c

def scanOutside (c : Char) : EscapeState := if c = '\\' then opened else outside

/-- The state after one more character; `none` when no escape goes like that. -/
def scan (state : EscapeState) (c : Char) : Option EscapeState :=
  match state with
  | outside => some (scanOutside c)
  | opened =>
    if isPlainEscape c then some outside
    else if c = 'x' ∨ c = 'X' then some hexOpened
    else none
  | hexOpened => (Decimal.digit? c).map fun digit => hex (UInt32.ofNat digit)
  | hex value =>
    match Decimal.digit? c with
    | some digit => some (hex (value * 16 + UInt32.ofNat digit))
    | none => if value ≤ 255 then some (scanOutside c) else none

def isFinal : EscapeState → Bool
  | outside => true
  | opened => false
  | hexOpened => false
  | hex value => value ≤ 255

end EscapeState

def isWellEscaped (text : List Char) : Bool :=
  (text.foldlM EscapeState.scan .outside).any EscapeState.isFinal

end SchemaGen.Text
