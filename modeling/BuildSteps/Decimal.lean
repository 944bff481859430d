/-!
# Decimal and binary numbers

Numbers with a binary exponent and at most 53 significant bits. A decimal number stands for the
nearest of them; of two that are equally near, for the one with an even significand. The decimal text
of a number has the fewest digits that are read back as the same number; of several such texts it is
the one nearest to it. It is positional and always has a decimal point.
-/

namespace BuildSteps.Decimal

/-! ## 1. Binary numbers -/

/-- A number `significand * 2 ^ exponent`, or one of the values that are no numbers. -/
inductive Binary64 where
  | nan
  | infinite (negative : Bool)
  | finite (negative : Bool) (significand : Nat) (exponent : Int)
  deriving DecidableEq, Repr

/-- A power with a natural exponent, one for negative exponents. -/
def pow (base : Nat) (exponent : Int) : Nat := Nat.pow base exponent.toNat

def divideToEven (numerator denominator : Nat) : Nat :=
  let quotient := numerator / denominator
  let remainder := numerator % denominator
  if 2 * remainder < denominator then quotient
  else if 2 * remainder = denominator then quotient + quotient % 2
  else quotient + 1

namespace Binary64

def ofFraction (negative : Bool) (numerator denominator : Nat) : Binary64 :=
  if numerator = 0 then finite negative 0 (-1074)
  else
    let guess : Int := Int.ofNat numerator.log2 - Int.ofNat denominator.log2
    let isBelow := numerator * pow 2 (-guess) < denominator * pow 2 guess
    let exponent := max ((if isBelow then guess - 1 else guess) - 52) (-1074)
    let rounded := divideToEven (numerator * pow 2 (-exponent)) (denominator * pow 2 exponent)
    let (significand, exponent) :=
      if rounded = Nat.pow 2 53 then (Nat.pow 2 52, exponent + 1) else (rounded, exponent)
    if exponent > 971 then infinite negative else finite negative significand exponent

/-- The number nearest to `digits * 10 ^ exponent`. Exponents so large or so small that nothing but
infinity or zero can come out are not written out. -/
def ofDecimal (negative : Bool) (digits : Nat) (exponent : Int) : Binary64 :=
  let size : Int := Int.ofNat (Nat.toDigits 10 digits).length + exponent
  if digits = 0 ∨ size < -400 then finite negative 0 (-1074)
  else if size > 400 then infinite negative
  else ofFraction negative (digits * pow 10 exponent) (pow 10 (-exponent))

end Binary64

/-! ## 2. Shortest decimals -/

def isLess (c : Nat) (grid : Int) (x : Nat) (exponent : Int) : Bool :=
  decide (c * pow 10 grid * pow 2 (-exponent) < x * pow 2 exponent * pow 10 (-grid))

def isEqual (c : Nat) (grid : Int) (x : Nat) (exponent : Int) : Bool :=
  c * pow 10 grid * pow 2 (-exponent) == x * pow 2 exponent * pow 10 (-grid)

/-- Whether a decimal is read back as the number `significand * 2 ^ exponent`: it lies between the
middles to the two neighbours, at a middle only when the significand is even. -/
def readsBack (significand : Nat) (exponent : Int) (c : Nat) (grid : Int) : Bool :=
  let below := if significand = Nat.pow 2 52 ∧ exponent > -1074 then 1 else 2
  let low := 4 * significand - below
  let high := 4 * significand + 2
  let e := exponent - 2
  let even := significand % 2 == 0
  !isLess c grid low e && (even || !isEqual c grid low e) &&
    (isLess c grid high e || (even && isEqual c grid high e))

/-- The multiple of `10 ^ grid` that is read back as the number and is nearest to it, if one is. -/
def onGrid? (significand : Nat) (exponent grid : Int) : Option Nat :=
  let lower := significand * pow 2 exponent * pow 10 (-grid) / (pow 2 (-exponent) * pow 10 grid)
  let isBack := fun c => readsBack significand exponent c grid
  match isBack lower, isBack (lower + 1) with
  | true, false => some lower
  | false, true => some (lower + 1)
  | true, true =>
    if isLess (2 * lower + 1) grid (2 * significand) exponent then some (lower + 1) else some lower
  | false, false => none

def search (significand : Nat) (exponent : Int) : Nat → Int → Nat × Int
  | 0, grid => (significand, grid)
  | n + 1, grid =>
    match onGrid? significand exponent grid with
    | some c => (c, grid)
    | none => search significand exponent n (grid - 1)

def positional (digits : Nat) (exponent : Int) : String :=
  let text := Nat.toDigits 10 digits
  if exponent ≥ 0 then String.ofList (text ++ List.replicate exponent.toNat '0') ++ ".0"
  else
    let places := (-exponent).toNat
    let padded := List.replicate (places + 1 - text.length) '0' ++ text
    String.ofList (padded.take (padded.length - places)) ++ "." ++
      String.ofList (padded.drop (padded.length - places))

def Binary64.text : Binary64 → String
  | nan => "NaN"
  | infinite negative => if negative then "-inf" else "inf"
  | finite negative significand exponent =>
    (if negative then "-" else "") ++
      if significand = 0 then "0.0"
      else
        let (digits, grid) := search significand exponent 700 310
        positional digits grid

end BuildSteps.Decimal
