import SchemaGen.Decimal.Shortest

/-!
# Written decimals

How a real number is written: its shortest digits, positionally when the leading digit stands for
at least `10 ^ -4` and less than `10 ^ 16`, otherwise with a signed exponent of two digits or more.
A whole number keeps a zero after its point.
-/

namespace SchemaGen.Decimal

/-- The places, counted from the point to the left, at which the first digit may stand in
positional form. -/
def firstPlace : Int := -3

def lastPlace : Int := 16

def exponentText (exponent : Int) : String :=
  let size := toString exponent.natAbs
  (if exponent < 0 then "e-" else "e+") ++ (if size.length < 2 then "0" else "") ++ size

/-- Writes digits whose first one stands at `place`. -/
def layout (digits : List Char) (place : Int) : String :=
  if firstPlace ≤ place ∧ place ≤ lastPlace then
    if place ≤ 0 then
      "0." ++ String.ofList (List.replicate (-place).toNat '0' ++ digits)
    else
      let whole := digits.take place.toNat
      let padding := List.replicate (place.toNat - whole.length) '0'
      let fraction := digits.drop place.toNat
      String.ofList (whole ++ padding ++ '.' :: if fraction.isEmpty then ['0'] else fraction)
  else
    match digits with
    | [] => ""
    | [digit] => String.ofList [digit] ++ exponentText (place - 1)
    | digit :: more => String.ofList (digit :: '.' :: more) ++ exponentText (place - 1)

def magnitudeText : Magnitude → String
  | .zero => "0.0"
  | .infinite => "inf"
  | .notANumber => "nan"
  | .finite value =>
    match shortest? value with
    | none => ""
    | some decimal =>
      let digits := (toString decimal.digits).toList
      layout digits (decimal.exponent + digits.length)

def shown (bits : UInt64) : String :=
  match magnitude bits with
  | .notANumber => "nan"
  | size => (if isNegative bits then "-" else "") ++ magnitudeText size

end SchemaGen.Decimal
