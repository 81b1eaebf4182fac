import SchemaGen.Wire.Varint

/-!
# Records

The self-describing layer of the wire format: a message is a list of records, each a field number
with a payload of one of five shapes. Reading goes by tokens, in which a group is an opening and a
closing mark, and then nests the groups; it needs no schema and keeps length-delimited payloads as
they are. Nesting of groups is bounded.
-/

namespace SchemaGen.Wire

/-- A stretch of the wire format: a plain record, or the mark that opens or closes a group. -/
inductive Token where
  | varint (number : Nat) (value : UInt64)
  | fixed64 (number : Nat) (bits : UInt64)
  | bytes (number : Nat) (content : Bytes)
  | opening (number : Nat)
  | closing (number : Nat)
  | fixed32 (number : Nat) (bits : UInt32)
  deriving Repr, DecidableEq

inductive Record where
  | varint (number : Nat) (value : UInt64)
  | fixed64 (number : Nat) (bits : UInt64)
  | bytes (number : Nat) (content : Bytes)
  | group (number : Nat) (members : List Record)
  | fixed32 (number : Nat) (bits : UInt32)
  deriving Repr

def littleEndian : (count : Nat) → Nat → Bytes
  | 0, _ => []
  | count + 1, n => n.toUInt8 :: littleEndian count (n / 256)

def ofLittleEndian : Bytes → Nat
  | [] => 0
  | b :: rest => b.toNat + 256 * ofLittleEndian rest

def readChunk (count : Nat) (bytes : Bytes) : Option (Bytes × Bytes) :=
  if count ≤ bytes.length then some (bytes.take count, bytes.drop count) else none

/-- The most bytes that a tag takes, and so does a length in what the generator reads. -/
def maxTagBytes : Nat := 5

def readDelimited (limit : Nat) (bytes : Bytes) : Option (Bytes × Bytes) := do
  let (count, rest) ← Varint.read limit bytes
  readChunk count rest

namespace Token

/-- Reads one token. The tag has a 32-bit value; number zero and wire types six and seven are
refused. A length takes at most `limit` bytes. -/
def read (limit : Nat) (input : Bytes) : Option (Token × Bytes) := do
  let (tag, rest) ← Varint.read maxTagBytes input
  let number := tag / 8
  if tag ≥ Nat.pow 2 32 || number == 0 then none
  else
    match tag % 8 with
    | 0 => (Varint.readValue rest).map fun r => (.varint number r.1, r.2)
    | 1 => (readChunk 8 rest).map fun r => (.fixed64 number (.ofNat (ofLittleEndian r.1)), r.2)
    | 2 => (readDelimited limit rest).map fun r => (.bytes number r.1, r.2)
    | 3 => some (.opening number, rest)
    | 4 => some (.closing number, rest)
    | 5 => (readChunk 4 rest).map fun r => (.fixed32 number (.ofNat (ofLittleEndian r.1)), r.2)
    | _ => none

def readUpTo (limit : Nat) : (count : Nat) → Bytes → Option (List Token)
  | _, [] => some []
  | 0, _ :: _ => none
  | count + 1, b :: input => do
    let (token, rest) ← read limit (b :: input)
    let tokens ← readUpTo limit count rest
    return token :: tokens

def readAll (limit : Nat) (input : Bytes) : Option (List Token) :=
  readUpTo limit input.length input

end Token

namespace Record

def number : Record → Nat
  | varint number _ => number
  | fixed64 number _ => number
  | bytes number _ => number
  | group number _ => number
  | fixed32 number _ => number

/-- A group that is still open: its number, and the records before it on its level, last first. -/
abbrev Opened := Nat × List Record

/-- Nests the groups of a token list. `outer` holds the open groups, innermost first, and `level`
the records read so far on the innermost level, last first. At most `depth` groups may be open. -/
def nest (depth : Nat) : (outer : List Opened) → (level : List Record) → List Token →
    Option (List Record)
  | [], level, [] => some level.reverse
  | _ :: _, _, [] => none
  | outer, level, .varint number value :: tokens =>
    nest depth outer (.varint number value :: level) tokens
  | outer, level, .fixed64 number bits :: tokens =>
    nest depth outer (.fixed64 number bits :: level) tokens
  | outer, level, .bytes number content :: tokens =>
    nest depth outer (.bytes number content :: level) tokens
  | outer, level, .fixed32 number bits :: tokens =>
    nest depth outer (.fixed32 number bits :: level) tokens
  | outer, level, .opening number :: tokens =>
    if outer.length < depth then nest depth ((number, level) :: outer) [] tokens else none
  | (number, before) :: outer, level, .closing other :: tokens =>
    if number = other then nest depth outer (.group number level.reverse :: before) tokens
    else none
  | [], _, .closing _ :: _ => none

def readWithin (limit depth : Nat) (input : Bytes) : Option (List Record) := do
  let tokens ← Token.readAll limit input
  nest depth [] [] tokens

def readAll (depth : Nat) (input : Bytes) : Option (List Record) :=
  readWithin maxTagBytes depth input

def tag (number wireType : Nat) : Bytes := Varint.encode (UInt64.ofNat (number * 8 + wireType))

def delimited (content : Bytes) : Bytes := Varint.encodeNat content.length ++ content

mutual
def encode : Record → Bytes
  | varint number value => tag number 0 ++ Varint.encode value
  | fixed64 number bits => tag number 1 ++ littleEndian 8 bits.toNat
  | bytes number content => tag number 2 ++ delimited content
  | group number members => tag number 3 ++ encodeAll members ++ tag number 4
  | fixed32 number bits => tag number 5 ++ littleEndian 4 bits.toNat
def encodeAll : List Record → Bytes
  | [] => []
  | record :: rest => record.encode ++ encodeAll rest
end

def varints (number : Nat) (records : List Record) : List UInt64 :=
  records.filterMap fun
    | varint other value => if other = number then some value else none
    | _ => none

def contents (number : Nat) (records : List Record) : List Bytes :=
  records.filterMap fun
    | bytes other content => if other = number then some content else none
    | _ => none

end Record

end SchemaGen.Wire
