/-!
# Variable-length integers

Numbers as bytes of seven bits each, lowest first; every byte but the last has its high bit set.
Reading takes a limit on the number of bytes and accepts longer forms than necessary within it.
-/

namespace SchemaGen.Wire

abbrev Bytes := List UInt8

namespace Varint

def encodeWithin : (limit : Nat) → Nat → Bytes
  | 0, _ => []
  | limit + 1, n =>
    if n < 128 then [n.toUInt8] else (n % 128 + 128).toUInt8 :: encodeWithin limit (n / 128)

def maxBytes : Nat := 10

def encode (value : UInt64) : Bytes := encodeWithin maxBytes value.toNat

def encodeNat (n : Nat) : Bytes := encodeWithin (n.log2 / 7 + 1) n

/-- The number at the start of the bytes, and the bytes after it; refuses a number that does not
end within `limit` bytes. -/
def read : (limit : Nat) → Bytes → Option (Nat × Bytes)
  | 0, _ => none
  | _ + 1, [] => none
  | limit + 1, b :: rest =>
    if b.toNat < 128 then some (b.toNat, rest)
    else (read limit rest).map fun r => (b.toNat - 128 + 128 * r.1, r.2)

/-- A 64-bit value: of a tenth byte only the lowest bit counts. -/
def readValue (bytes : Bytes) : Option (UInt64 × Bytes) :=
  (read maxBytes bytes).map fun r => (UInt64.ofNat r.1, r.2)

theorem toNat_toUInt8 {n : Nat} (h : n < 256) : n.toUInt8.toNat = n := by
  simp [Nat.mod_eq_of_lt h]

theorem read_encodeWithin (limit n : Nat) (rest : Bytes) (h : n < Nat.pow 128 (limit + 1)) :
    read (limit + 1) (encodeWithin (limit + 1) n ++ rest) = some (n, rest) := by
  induction limit generalizing n with
  | zero =>
    have small : n < 128 := by simpa using h
    have byte := toNat_toUInt8 (by omega : n < 256)
    rw [encodeWithin, if_pos small, List.singleton_append, read, byte, if_pos small]
  | succ limit ih =>
    rw [encodeWithin]
    by_cases small : n < 128
    · have byte := toNat_toUInt8 (by omega : n < 256)
      rw [if_pos small, List.singleton_append, read, byte, if_pos small]
    · have byte := toNat_toUInt8 (by omega : n % 128 + 128 < 256)
      have shorter : n / 128 < Nat.pow 128 (limit + 1) := by
        rw [Nat.div_lt_iff_lt_mul (by decide)]
        exact h
      rw [if_neg small, List.cons_append, read, byte, if_neg (by omega), ih _ shorter]
      simp only [Option.map_some, Option.some.injEq, Prod.mk.injEq, and_true]
      omega

theorem readValue_encode (value : UInt64) (rest : Bytes) :
    readValue (encode value ++ rest) = some (value, rest) := by
  have small : value.toNat < Nat.pow 128 (9 + 1) := Nat.lt_trans value.toNat_lt (by decide)
  rw [readValue, encode, maxBytes, read_encodeWithin 9 _ _ small]
  simp

end Varint

end SchemaGen.Wire
