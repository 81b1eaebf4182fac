/-!
# Shortest decimals

The decimal with the fewest digits that a double's bits can be read back from, found by exact
arithmetic on natural numbers. The reals that round to a double form an interval around it; the
coarsest power of ten that has a multiple in the interval gives the digits.
-/

namespace SchemaGen.Decimal

/-- A positive binary number `mantissa * 2 ^ exponent`. `narrow` tells that the gap to the
neighbour below is half the gap above. -/
structure Binary where
  mantissa : Nat
  exponent : Int
  narrow : Bool
  deriving Repr, DecidableEq

inductive Magnitude where
  | zero
  | finite (value : Binary)
  | infinite
  | notANumber
  deriving Repr, DecidableEq

def isNegative (bits : UInt64) : Bool := bits.toNat / Nat.pow 2 63 == 1

def magnitude (bits : UInt64) : Magnitude :=
  let fraction := bits.toNat % Nat.pow 2 52
  let field : Nat := bits.toNat / Nat.pow 2 52 % Nat.pow 2 11
  if field = 2047 then if fraction = 0 then .infinite else .notANumber
  else if field = 0 then if fraction = 0 then .zero else .finite ⟨fraction, -1074, false⟩
  else .finite ⟨Nat.pow 2 52 + fraction, (field : Int) - 1075, fraction == 0 && field != 1⟩

def widen (bits : UInt32) : UInt64 :=
  let sign := bits.toNat / Nat.pow 2 31
  let field := bits.toNat / Nat.pow 2 23 % Nat.pow 2 8
  let fraction := bits.toNat % Nat.pow 2 23
  let wide :=
    if field = 255 then 2047 * Nat.pow 2 52 + fraction * Nat.pow 2 29
    else if field ≠ 0 then (field + 896) * Nat.pow 2 52 + fraction * Nat.pow 2 29
    else if fraction = 0 then 0
    else
      let top := fraction.log2
      (top + 874) * Nat.pow 2 52 + (fraction - Nat.pow 2 top) * Nat.pow 2 (52 - top)
  UInt64.ofNat (sign * Nat.pow 2 63 + wide)

structure Digits where
  digits : Nat
  exponent : Int
  deriving Repr, DecidableEq

/-- A binary number and a power of ten in one unit: `step` units make the power of ten, `quarter`
units a quarter of the binary number's last place. -/
def quarter (value : Binary) (power : Int) : Nat :=
  Nat.pow 2 (value.exponent - 2).toNat * Nat.pow 10 (-power).toNat

def step (value : Binary) (power : Int) : Nat :=
  Nat.pow 2 (2 - value.exponent).toNat * Nat.pow 10 power.toNat

/-- Whether `digits * 10 ^ power` lies in the interval that rounds to the value. The ends belong to
it exactly when the mantissa is even. -/
def roundsTo (value : Binary) (power : Int) (digits : Nat) : Bool :=
  let low := (4 * value.mantissa - if value.narrow then 1 else 2) * quarter value power
  let high := (4 * value.mantissa + 2) * quarter value power
  let point := digits * step value power
  if value.mantissa % 2 = 0 then low ≤ point && point ≤ high else low < point && point < high

/-- A multiple of the power of ten that rounds to the value: of the two beside it the nearer, the
even one on a tie. -/
def nearestOn? (value : Binary) (power : Int) : Option Nat :=
  let exact := 4 * value.mantissa * quarter value power
  let unit := step value power
  let below := exact / unit
  match roundsTo value power below, roundsTo value power (below + 1) with
  | false, false => none
  | true, false => some below
  | false, true => some (below + 1)
  | true, true =>
    let twice := 2 * (exact % unit)
    if twice < unit || (twice == unit && below % 2 == 0) then some below else some (below + 1)

def powers : List Int := (List.range 634).map fun n : Nat => 309 - (n : Int)

def shortest? (value : Binary) : Option Digits :=
  powers.findSome? fun power => (nearestOn? value power).map fun digits => ⟨digits, power⟩

end SchemaGen.Decimal
