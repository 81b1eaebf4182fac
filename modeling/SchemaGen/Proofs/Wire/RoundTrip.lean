import SchemaGen.Wire.Schema

/-!
# Reading back what was written

Reading the wire form of records gives the records again (`Record.readWithin_encodeAll`). A record
is written as the tokens that it is read by, so the proof has two parts: the bytes of tokens are
read back token by token, and nesting the tokens of records gives the records.
-/

namespace SchemaGen.Wire

theorem text?_toUTF8 (text : String) : text? text.toUTF8.data.toList = some text := by
  have hbytes : text.toUTF8.data.toList.toByteArray = text.toUTF8 := by
    apply ByteArray.ext
    simp
  have hvalid : text.toUTF8.IsValidUTF8 := text.isValidUTF8
  rw [text?, hbytes, String.fromUTF8?, dif_pos hvalid]
  rfl

-- ---------------------------------------------------------------------------
-- Numbers
-- ---------------------------------------------------------------------------

namespace Varint

theorem read_of_le {limit more : Nat} (hle : limit ≤ more) {input : Bytes} {result : Nat × Bytes}
    (h : read limit input = some result) : read more input = some result := by
  fun_induction read limit input generalizing more result with
  | case1 => cases h
  | case2 => cases h
  | case3 limit b rest hlast =>
    cases more with
    | zero => omega
    | succ more => rw [read, if_pos hlast, h]
  | case4 limit b rest hmore ih =>
    cases more with
    | zero => omega
    | succ more =>
      obtain ⟨last, hlast, rfl⟩ := Option.map_eq_some_iff.mp h
      rw [read, if_neg hmore, ih (by omega) hlast]
      rfl

theorem encodeWithin_of_le {limit more n : Nat} (hle : limit ≤ more)
    (h : n < Nat.pow 128 (limit + 1)) : encodeWithin (more + 1) n = encodeWithin (limit + 1) n := by
  induction limit generalizing more n with
  | zero =>
    have hsmall : n < 128 := by simpa using h
    rw [encodeWithin, encodeWithin, if_pos hsmall, if_pos hsmall]
  | succ limit ih =>
    obtain ⟨more, rfl⟩ : ∃ less, more = less + 1 := ⟨more - 1, by omega⟩
    have hrest : n / 128 < Nat.pow 128 (limit + 1) := by
      rw [Nat.div_lt_iff_lt_mul (by decide)]
      exact h
    have hsame : encodeWithin (more + 1) (n / 128) = encodeWithin (limit + 1) (n / 128) :=
      ih (by omega) hrest
    rw [encodeWithin, hsame]
    rfl

theorem length_encodeWithin_pos (limit n : Nat) : 0 < (encodeWithin (limit + 1) n).length := by
  rw [encodeWithin]
  split <;> simp

def width (n : Nat) : Nat := n.log2 / 7 + 1

theorem lt_pow_width (n : Nat) : n < Nat.pow 128 (width n) := by
  have hpow : Nat.pow 128 (width n) = 2 ^ (7 * width n) := by
    rw [Nat.pow_mul]
    rfl
  rw [hpow]
  refine Nat.lt_of_lt_of_le Nat.lt_log2_self (Nat.pow_le_pow_right (by decide) ?_)
  rw [width]
  omega

theorem read_encodeNat {limit n : Nat} (h : width n ≤ limit) (rest : Bytes) :
    read limit (encodeNat n ++ rest) = some (n, rest) :=
  read_of_le h (read_encodeWithin (n.log2 / 7) n rest (lt_pow_width n))

theorem width_le (n : Nat) : width n ≤ n + 1 := by
  have hlog := Nat.log2_le_self n
  rw [width]
  omega

end Varint

theorem length_littleEndian (count n : Nat) : (littleEndian count n).length = count := by
  induction count generalizing n with
  | zero => rfl
  | succ count ih => simp [littleEndian, ih]

theorem ofLittleEndian_littleEndian (count n : Nat) (h : n < Nat.pow 256 count) :
    ofLittleEndian (littleEndian count n) = n := by
  induction count generalizing n with
  | zero =>
    have hzero : n = 0 := Nat.lt_one_iff.mp h
    rw [hzero]
    rfl
  | succ count ih =>
    have hrest : n / 256 < Nat.pow 256 count := by
      rw [Nat.div_lt_iff_lt_mul (by decide)]
      exact h
    rw [littleEndian, ofLittleEndian, ih _ hrest, Nat.toUInt8_eq, UInt8.toNat_ofNat']
    omega

theorem readChunk_append {chunk : Bytes} {count : Nat} (h : chunk.length = count) (rest : Bytes) :
    readChunk count (chunk ++ rest) = some (chunk, rest) := by
  subst h
  simp [readChunk]

-- ---------------------------------------------------------------------------
-- Tokens
-- ---------------------------------------------------------------------------

namespace Token

def number : Token → Nat
  | varint number _ => number
  | fixed64 number _ => number
  | bytes number _ => number
  | opening number => number
  | closing number => number
  | fixed32 number _ => number

def wireType : Token → Nat
  | varint .. => 0
  | fixed64 .. => 1
  | bytes .. => 2
  | opening .. => 3
  | closing .. => 4
  | fixed32 .. => 5

def payload : Token → Bytes
  | varint _ value => Varint.encode value
  | fixed64 _ bits => littleEndian 8 bits.toNat
  | bytes _ content => Record.delimited content
  | opening _ => []
  | closing _ => []
  | fixed32 _ bits => littleEndian 4 bits.toNat

def encode (token : Token) : Bytes := Record.tag token.number token.wireType ++ token.payload

def announced : Token → Nat
  | bytes _ content => content.length
  | _ => 0

def maxNumber : Nat := 536870911

structure Fits (limit : Nat) (token : Token) : Prop where
  positive : 0 < token.number
  small : token.number ≤ maxNumber
  length : Varint.width token.announced ≤ limit

theorem read_tag {number wireType : Nat} (hnumber : number ≤ maxNumber) (htype : wireType < 8)
    (rest : Bytes) :
    Varint.read maxTagBytes (Record.tag number wireType ++ rest) =
      some (number * 8 + wireType, rest) := by
  rw [maxNumber] at hnumber
  have hvalue : (UInt64.ofNat (number * 8 + wireType)).toNat = number * 8 + wireType := by
    rw [UInt64.toNat_ofNat']
    omega
  have hsmall : number * 8 + wireType < Nat.pow 128 (4 + 1) :=
    Nat.lt_of_lt_of_le (show number * 8 + wireType < 4294967296 by omega) (by decide)
  rw [Record.tag, Varint.encode, hvalue, Varint.maxBytes,
    Varint.encodeWithin_of_le (show 4 ≤ 9 by decide) hsmall]
  exact Varint.read_encodeWithin 4 _ rest hsmall

theorem read_encode {limit : Nat} {token : Token} (h : token.Fits limit) (rest : Bytes) :
    read limit (token.encode ++ rest) = some (token, rest) := by
  obtain ⟨hpositive, hsmall, hlength⟩ := h
  have hwire : token.wireType < 8 := by cases token <;> simp [wireType]
  have hnumber : (token.number * 8 + token.wireType) / 8 = token.number := by omega
  have hkind : (token.number * 8 + token.wireType) % 8 = token.wireType := by omega
  have hlow : ¬(token.number * 8 + token.wireType ≥ Nat.pow 2 32) := by
    rw [show Nat.pow 2 32 = (maxNumber + 1) * 8 by decide]
    omega
  rw [encode, List.append_assoc, read, read_tag hsmall hwire]
  simp only [Option.bind_eq_bind, Option.bind_some, hnumber, hkind, hlow, decide_false,
    Bool.false_or, beq_iff_eq, if_neg (Nat.ne_of_gt hpositive)]
  cases token with
  | varint number value => simp [wireType, payload, Token.number, Varint.readValue_encode]
  | fixed64 number bits =>
    have hchunk := readChunk_append (length_littleEndian 8 bits.toNat) rest
    have hbits := ofLittleEndian_littleEndian 8 bits.toNat bits.toNat_lt
    simp [wireType, payload, Token.number, hchunk, hbits]
  | bytes number content =>
    have hcount := Varint.read_encodeNat hlength (content ++ rest)
    have hchunk : readChunk content.length (content ++ rest) = some (content, rest) :=
      readChunk_append rfl rest
    simp only [announced] at hcount
    simp [wireType, payload, Token.number, Record.delimited, readDelimited, hcount, hchunk]
  | opening number => rfl
  | closing number => rfl
  | fixed32 number bits =>
    have hchunk := readChunk_append (length_littleEndian 4 bits.toNat) rest
    have hbits := ofLittleEndian_littleEndian 4 bits.toNat bits.toNat_lt
    simp [wireType, payload, Token.number, hchunk, hbits]

theorem readUpTo_encode {limit : Nat} {tokens : List Token} (h : ∀ token ∈ tokens, token.Fits limit)
    {count : Nat} (hcount : tokens.length ≤ count) :
    readUpTo limit count (tokens.flatMap encode) = some tokens := by
  induction tokens generalizing count with
  | nil => cases count <;> rfl
  | cons token more ih =>
    have hread := read_encode (h token (by simp)) (more.flatMap encode)
    obtain ⟨count, rfl⟩ : ∃ less, count = less + 1 := ⟨count - 1, by simp at hcount; omega⟩
    have hmore := ih (fun other hother => h other (by simp [hother]))
      (show more.length ≤ count by simpa using hcount)
    rw [List.flatMap_cons]
    -- a token is not empty, so the reader takes its step
    cases hinput : token.encode ++ more.flatMap encode with
    | nil =>
      rw [hinput] at hread
      simp [read, Varint.read, maxTagBytes] at hread
    | cons b input =>
      rw [hinput] at hread
      simp [readUpTo, hread, hmore]

theorem length_tag_pos (number wireType : Nat) : 0 < (Record.tag number wireType).length :=
  Varint.length_encodeWithin_pos 9 _

theorem length_le_length_encode (tokens : List Token) :
    tokens.length ≤ (tokens.flatMap encode).length := by
  induction tokens with
  | nil => simp
  | cons token more ih =>
    have htag := length_tag_pos token.number token.wireType
    simp only [List.flatMap_cons, List.length_cons, List.length_append, encode]
    omega

theorem readAll_encode {limit : Nat} {tokens : List Token}
    (h : ∀ token ∈ tokens, token.Fits limit) :
    readAll limit (tokens.flatMap encode) = some tokens :=
  readUpTo_encode h (length_le_length_encode tokens)

theorem announced_lt_length {tokens : List Token} {token : Token} (h : token ∈ tokens) :
    token.announced < (tokens.flatMap encode).length := by
  have htag := length_tag_pos token.number token.wireType
  have hpayload : token.announced ≤ token.payload.length := by
    cases token <;> simp [announced, payload, Record.delimited]
  obtain ⟨before, after, rfl⟩ := List.append_of_mem h
  simp only [List.flatMap_append, List.flatMap_cons, List.length_append, encode]
  omega

end Token

-- ---------------------------------------------------------------------------
-- Records
-- ---------------------------------------------------------------------------

namespace Record

mutual
def tokens : Record → List Token
  | varint number value => [.varint number value]
  | fixed64 number bits => [.fixed64 number bits]
  | bytes number content => [.bytes number content]
  | group number members => .opening number :: (tokensAll members ++ [.closing number])
  | fixed32 number bits => [.fixed32 number bits]
def tokensAll : List Record → List Token
  | [] => []
  | record :: rest => record.tokens ++ tokensAll rest
end

mutual
def height : Record → Nat
  | group _ members => heightAll members + 1
  | _ => 0
def heightAll : List Record → Nat
  | [] => 0
  | record :: rest => max record.height (heightAll rest)
end

theorem mem_tokensAll {token : Token} {records : List Record} :
    token ∈ tokensAll records ↔ ∃ record ∈ records, token ∈ record.tokens := by
  induction records with
  | nil => simp [tokensAll]
  | cons record rest ih => simp [tokensAll, ih]

theorem heightAll_le {depth : Nat} {records : List Record} :
    heightAll records ≤ depth ↔ ∀ record ∈ records, record.height ≤ depth := by
  induction records with
  | nil => simp [heightAll]
  | cons record rest ih => rw [heightAll, Nat.max_le, ih, List.forall_mem_cons]

section
-- the tokens of a record and the record are written by the same pieces
attribute [local simp] Token.encode Token.number Token.wireType Token.payload

mutual
theorem encode_eq (record : Record) : record.encode = record.tokens.flatMap Token.encode := by
  cases record with
  | varint number value => simp [encode, tokens]
  | fixed64 number bits => simp [encode, tokens]
  | bytes number content => simp [encode, tokens]
  | group number members =>
    rw [encode, tokens, encodeAll_eq members]
    simp
  | fixed32 number bits => simp [encode, tokens]
theorem encodeAll_eq (records : List Record) :
    encodeAll records = (tokensAll records).flatMap Token.encode := by
  cases records with
  | nil => rfl
  | cons record rest =>
    rw [encodeAll, tokensAll, encode_eq record, encodeAll_eq rest, List.flatMap_append]
end

end

mutual
/-- Nesting goes over the tokens of a record to the record, inside any open groups. -/
theorem nest_tokens {depth : Nat} (record : Record) (outer : List Opened) (level : List Record)
    (rest : List Token) (h : outer.length + record.height ≤ depth) :
    nest depth outer level (record.tokens ++ rest) = nest depth outer (record :: level) rest := by
  cases record with
  | varint number value => simp [tokens, nest]
  | fixed64 number bits => simp [tokens, nest]
  | bytes number content => simp [tokens, nest]
  | group number members =>
    rw [height] at h
    -- the members are nested one level down, up to the mark that closes their group
    have hopen : outer.length < depth := by omega
    have hmembers := nest_tokensAll members ((number, level) :: outer) []
      (.closing number :: rest) (show outer.length + 1 + heightAll members ≤ depth by omega)
    simp [tokens, nest, hopen, hmembers]
  | fixed32 number bits => simp [tokens, nest]
theorem nest_tokensAll {depth : Nat} (records : List Record) (outer : List Opened)
    (level : List Record) (rest : List Token) (h : outer.length + heightAll records ≤ depth) :
    nest depth outer level (tokensAll records ++ rest) =
      nest depth outer (records.reverse ++ level) rest := by
  cases records with
  | nil => simp [tokensAll]
  | cons record more =>
    rw [heightAll] at h
    have hrecord := nest_tokens record outer level (tokensAll more ++ rest)
      (show outer.length + record.height ≤ depth by omega)
    have hmore := nest_tokensAll more outer (record :: level) rest
      (show outer.length + heightAll more ≤ depth by omega)
    simp [tokensAll, hrecord, hmore]
end

/-- Records are read back from their wire form, when their numbers and lengths fit and groups nest
at most to the depth of reading. -/
theorem readWithin_encodeAll {limit depth : Nat} {records : List Record}
    (hfits : ∀ token ∈ tokensAll records, token.Fits limit) (hdepth : heightAll records ≤ depth) :
    readWithin limit depth (encodeAll records) = some records := by
  have hnest := nest_tokensAll records [] [] [] (by simpa using hdepth)
  rw [readWithin, encodeAll_eq, Token.readAll_encode hfits]
  simpa [nest] using hnest

theorem readWithin_length_encodeAll {depth : Nat} {records : List Record}
    (hnumbers : ∀ token ∈ tokensAll records, 0 < token.number ∧ token.number ≤ Token.maxNumber)
    (hdepth : heightAll records ≤ depth) :
    readWithin (encodeAll records).length depth (encodeAll records) = some records := by
  refine readWithin_encodeAll (fun token htoken => ?_) hdepth
  have hlength := Token.announced_lt_length htoken
  rw [← encodeAll_eq] at hlength
  refine ⟨(hnumbers token htoken).1, (hnumbers token htoken).2, ?_⟩
  exact Nat.le_trans (Varint.width_le _) hlength

end Record

end SchemaGen.Wire
