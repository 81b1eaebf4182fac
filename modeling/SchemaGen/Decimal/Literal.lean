/-!
# Number literals

Numbers written out in a text. Blanks may stand in front, then a sign. A whole number is written in
base sixteen after `0x`, in base eight after `0`, and in base ten otherwise. A real number has an
optional fraction and exponent in base ten, or after `0x` in base sixteen with a power of two; it
may also be infinite or not a number. `Format.holds` tells whether a real number can be rounded into
a binary format without leaving its range at either end.
-/

namespace SchemaGen.Decimal

def isLeadingSpace (c : Char) : Bool := c == ' ' || (0x09 ≤ c.toNat && c.toNat ≤ 0x0d)

def cutSign : List Char → Bool × List Char
  | '-' :: rest => (true, rest)
  | '+' :: rest => (false, rest)
  | text => (false, text)

def digit? (c : Char) : Option Nat :=
  if '0' ≤ c ∧ c ≤ '9' then some (c.toNat - '0'.toNat)
  else if 'a' ≤ c ∧ c ≤ 'f' then some (c.toNat - 'a'.toNat + 10)
  else if 'A' ≤ c ∧ c ≤ 'F' then some (c.toNat - 'A'.toNat + 10)
  else none

def isDigitIn (base : Nat) (c : Char) : Bool := (digit? c).any (· < base)

def digitsValue (base : Nat) (digits : List Char) : Nat :=
  digits.foldl (fun value c => base * value + (digit? c).getD 0) 0

def digitsIn? (base : Nat) (text : List Char) : Option Nat :=
  if !text.isEmpty && text.all (isDigitIn base) then some (digitsValue base text) else none

-- ---------------------------------------------------------------------------
-- Whole numbers
-- ---------------------------------------------------------------------------

structure Whole where
  isNegative : Bool
  magnitude : Nat
  deriving Repr, DecidableEq

namespace Whole

def magnitude? : List Char → Option Nat
  | '0' :: 'x' :: rest => digitsIn? 16 rest
  | '0' :: 'X' :: rest => digitsIn? 16 rest
  | '0' :: rest => digitsIn? 8 ('0' :: rest)
  | text => digitsIn? 10 text

def ofChars? (text : List Char) : Option Whole :=
  let (isNegative, rest) := cutSign (text.dropWhile isLeadingSpace)
  (magnitude? rest).map fun magnitude => ⟨isNegative, magnitude⟩

def fitsSigned (number : Whole) (bits : Nat) : Bool :=
  if number.isNegative then number.magnitude ≤ Nat.pow 2 (bits - 1)
  else number.magnitude < Nat.pow 2 (bits - 1)

/-- Whether an unsigned word of so many bits can hold the number, which is first taken as a word of
sixty-four bits, where a negative one counts from the top. -/
def fitsUnsigned (number : Whole) (bits : Nat) : Bool :=
  let top := Nat.pow 2 64
  number.magnitude < top &&
    (if number.isNegative then (top - number.magnitude) % top else number.magnitude) <
      Nat.pow 2 bits

end Whole

-- ---------------------------------------------------------------------------
-- Real numbers
-- ---------------------------------------------------------------------------

/-- The magnitude of a real number; a finite one is `digits * base ^ exponent`. -/
inductive Real where
  | infinite
  | notANumber
  | finite (digits base : Nat) (exponent : Int)
  deriving Repr, DecidableEq

namespace Real

/-- Digits with a point among them or at an end: the number without the point, how many digits
follow the point, and the rest of the text. -/
def mantissa? (base : Nat) (text : List Char) : Option (Nat × Nat × List Char) :=
  let whole := text.takeWhile (isDigitIn base)
  let after := text.dropWhile (isDigitIn base)
  let (fraction, rest) := match after with
    | '.' :: more => (more.takeWhile (isDigitIn base), more.dropWhile (isDigitIn base))
    | _ => ([], after)
  if (whole ++ fraction).isEmpty then none
  else some (digitsValue base (whole ++ fraction), fraction.length, rest)

def exponent? (mark : Char) : List Char → Option Int
  | [] => some 0
  | c :: rest =>
    if c.toLower = mark then
      let (isNegative, digits) := cutSign rest
      (digitsIn? 10 digits).map fun value => if isNegative then -(value : Int) else value
    else none

def decimal? (text : List Char) : Option Real := do
  let (digits, places, rest) ← mantissa? 10 text
  let exponent ← exponent? 'e' rest
  return .finite digits 10 (exponent - places)

def hexadecimal? (text : List Char) : Option Real := do
  let (digits, places, rest) ← mantissa? 16 text
  let exponent ← exponent? 'p' rest
  return .finite digits 2 (exponent - 4 * places)

def isPayload (text : List Char) : Bool :=
  text.head? == some '(' && text.getLast? == some ')' && text.length ≥ 2 &&
    (text.drop 1).dropLast.all fun c => c.isAlphanum || c == '_'

def magnitude? : List Char → Option Real
  | '0' :: 'x' :: rest => hexadecimal? rest
  | '0' :: 'X' :: rest => hexadecimal? rest
  | text =>
    let lower := text.map Char.toLower
    if lower == "inf".toList || lower == "infinity".toList then some .infinite
    else if lower.take 3 == "nan".toList && (text.length == 3 || isPayload (text.drop 3)) then
      some .notANumber
    else decimal? text

def ofChars? (text : List Char) : Option Real :=
  magnitude? (cutSign (text.dropWhile isLeadingSpace)).2

end Real

/-- A binary format: the bits of its mantissa, and the exponents of its least and greatest powers of
two, the former without its minus sign. -/
structure Format where
  precision : Nat
  least : Nat
  greatest : Nat
  deriving Repr, DecidableEq

def Format.double : Format := ⟨53, 1022, 1023⟩

def Format.single : Format := ⟨24, 126, 127⟩

namespace Format

/-- Whether the ratio rounds to something greater than every finite number of the format. -/
def exceeds (format : Format) (numerator denominator : Nat) : Bool :=
  denominator * (Nat.pow 2 (format.precision + 1) - 1) *
    Nat.pow 2 (format.greatest - format.precision) ≤ numerator

/-- Whether the ratio, rounded to the format's precision, is less than its least power of two. -/
def undercuts (format : Format) (numerator denominator : Nat) : Bool :=
  numerator * Nat.pow 2 (format.least + format.precision + 1) <
    denominator * (Nat.pow 2 (format.precision + 1) - 1)

/-- Whether the ratio is a multiple of the least positive number of the format. -/
def isExact (format : Format) (numerator denominator : Nat) : Bool :=
  numerator * Nat.pow 2 (format.least + format.precision - 1) % denominator == 0

/-- Whether a real number stays in the range of a format: it is not too great, and not so small that
digits are lost. Exponents far outside are settled without writing the number out. -/
def holds (format : Format) : Real → Bool
  | .infinite => true
  | .notANumber => true
  | .finite digits base exponent =>
    if digits = 0 then true
    else if exponent > 2000 || exponent + digits.log2 < -2000 then false
    else
      let numerator := digits * Nat.pow base exponent.toNat
      let denominator := Nat.pow base (-exponent).toNat
      !format.exceeds numerator denominator &&
        (!format.undercuts numerator denominator || format.isExact numerator denominator)

end Format

end SchemaGen.Decimal
