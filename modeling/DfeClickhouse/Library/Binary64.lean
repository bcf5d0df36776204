import Mathlib

/-!
# Binary floating-point numbers

IEEE-754 `binary64` values as bit patterns: their classes, the exact widening of
`binary32` patterns, the shortest decimal text that names a value, and the
operations that round an exact result to the nearest value, ties to even.
-/

namespace DfeClickhouse.Library

/-- The bit pattern of a `binary64` value. -/
abbrev Binary64 := BitVec 64

/-- The bit pattern of a `binary32` value. -/
abbrev Binary32 := BitVec 32

namespace Binary64

def isNegative (value : Binary64) : Bool := 2 ^ 63 ≤ value.toNat

/-- The biased exponent. -/
def exponentBits (value : Binary64) : Nat := value.toNat / 2 ^ 52 % 2 ^ 11

def fractionBits (value : Binary64) : Nat := value.toNat % 2 ^ 52

def isNan (value : Binary64) : Bool :=
  value.exponentBits == 2047 && value.fractionBits != 0

def isInfinite (value : Binary64) : Bool :=
  value.exponentBits == 2047 && value.fractionBits == 0

def isZero (value : Binary64) : Bool :=
  value.exponentBits == 0 && value.fractionBits == 0

/-- A finite value's magnitude is `mantissa * 2 ^ (scale - 1075)`. -/
def mantissa (value : Binary64) : Nat :=
  if value.exponentBits = 0 then value.fractionBits else 2 ^ 52 + value.fractionBits

def scale (value : Binary64) : Nat := max value.exponentBits 1

/-- Assemble a pattern from its sign and the bits below it. -/
def ofParts (negative : Bool) (low : Nat) : Binary64 :=
  BitVec.ofNat 64 ((if negative then 2 ^ 63 else 0) + low)

/-- The exact widening of a `binary32` value. -/
def ofBinary32 (value : Binary32) : Binary64 :=
  let negative : Bool := 2 ^ 31 ≤ value.toNat
  let exponent := value.toNat / 2 ^ 23 % 2 ^ 8
  let fraction := value.toNat % 2 ^ 23
  if exponent = 255 then
    ofParts negative (2047 * 2 ^ 52 + fraction * 2 ^ 29)
  else if exponent = 0 then
    if fraction = 0 then
      ofParts negative 0
    else
      -- A subnormal `binary32` value is normal in the wider format.
      let top := Nat.log2 fraction
      ofParts negative ((top + 874) * 2 ^ 52 + (fraction - 2 ^ top) * 2 ^ (52 - top))
  else
    ofParts negative ((exponent + 896) * 2 ^ 52 + fraction * 2 ^ 29)

/-- A positive rational as a fraction of natural numbers. -/
structure Ratio where
  numerator : Nat
  denominator : Nat

/-- `value * 2 ^ (power - offset)`. -/
def Ratio.ofScaled (value power offset : Nat) : Ratio :=
  if offset ≤ power then ⟨value * 2 ^ (power - offset), 1⟩
  else ⟨value, 2 ^ (offset - power)⟩

/-- `digits * 10 ^ exponent`. -/
def Ratio.ofDecimal (digits : Nat) (exponent : Int) : Ratio :=
  if 0 ≤ exponent then ⟨digits * 10 ^ exponent.toNat, 1⟩
  else ⟨digits, 10 ^ (-exponent).toNat⟩

def Ratio.lt (left right : Ratio) : Bool :=
  left.numerator * right.denominator < right.numerator * left.denominator

def Ratio.le (left right : Ratio) : Bool :=
  left.numerator * right.denominator ≤ right.numerator * left.denominator

/-- The exponent `k` with `10 ^ (k - 1) ≤ value < 10 ^ k`, searched upwards. -/
def decimalExponent (value : Ratio) : Nat → Int → Int
  | 0, exponent => exponent
  | steps + 1, exponent =>
      if value.lt (.ofDecimal 1 exponent) then exponent
      else decimalExponent value steps (exponent + 1)

/-- The shortest digits `d` and the exponent `k` with `0.d * 10 ^ k` inside the
rounding interval of a finite non-zero value, trying one digit count after the
other; of two candidates the closer one wins, and the upper one on a tie. -/
def shortestFrom (value low high : Ratio) (inclusive : Bool) (exponent : Int) :
    Nat → Nat → Nat × Int
  | 0, count => (0, exponent - count)
  | steps + 1, count =>
      let place := exponent - count
      let unit := Ratio.ofDecimal 1 place
      let below := value.numerator * unit.denominator / (value.denominator * unit.numerator)
      let inside (candidate : Ratio) : Bool :=
        if inclusive then low.le candidate && candidate.le high
        else low.lt candidate && candidate.lt high
      let down := inside (.ofDecimal below place)
      let up := inside (.ofDecimal (below + 1) place)
      -- The middle between the candidates, on the next decimal place.
      let middle := Ratio.ofDecimal (below * 10 + 5) (place - 1)
      if up && (!down || middle.le value) then
        -- Rounding up may carry through every digit.
        if (below + 1) % 10 = 0 then ((below + 1) / 10, place + 1) else (below + 1, place)
      else if down then (below, place)
      else shortestFrom value low high inclusive exponent steps (count + 1)

/-- The digits and place of the shortest decimal for a finite non-zero value. -/
def shortest (value : Binary64) : Nat × Int :=
  let mantissa := value.mantissa
  let inclusive : Bool := mantissa % 2 == 0
  let exact := Ratio.ofScaled mantissa value.scale 1075
  -- The gap below a power of two is half the gap above it.
  let low :=
    if mantissa = 2 ^ 52 then Ratio.ofScaled (4 * mantissa - 1) value.scale 1077
    else Ratio.ofScaled (2 * mantissa - 1) value.scale 1076
  let high := Ratio.ofScaled (2 * mantissa + 1) value.scale 1076
  shortestFrom exact low high inclusive (decimalExponent exact 700 (-330)) 17 1

/-- The decimal text of `digits * 10 ^ place`, without an exponent. -/
def decimalText (digits : Nat) (place : Int) : String :=
  let shown := Nat.toDigits 10 digits
  let point : Int := shown.length + place
  if 0 ≤ place then
    String.ofList (shown ++ List.replicate place.toNat '0')
  else if 0 < point then
    String.ofList (shown.take point.toNat ++ '.' :: shown.drop point.toNat)
  else
    "0." ++ String.ofList (List.replicate (-point).toNat '0' ++ shown)

/-- The text of a value in its default format. -/
def display (value : Binary64) : String :=
  if value.isNan then "NaN"
  else
    let sign := if value.isNegative then "-" else ""
    if value.isInfinite then sign ++ "inf"
    else if value.isZero then sign ++ "0"
    else
      let (digits, place) := value.shortest
      sign ++ decimalText digits place

/-- The largest `k` with `2 ^ k ≤ value`, for a positive value. -/
def Ratio.log2 (value : Ratio) : Int :=
  let guess : Int := value.numerator.log2 - value.denominator.log2
  let reached : Bool :=
    if 0 ≤ guess then 2 ^ guess.toNat * value.denominator ≤ value.numerator
    else value.denominator ≤ value.numerator * 2 ^ (-guess).toNat
  if reached then guess else guess - 1

/-- The bits below the sign of the value nearest to a ratio, in a format with
`fraction` fraction bits, smallest exponent `least` and `top` as the exponent field of
infinity. -/
def roundRatio (fraction : Nat) (least : Int) (top : Nat) (value : Ratio) : Nat :=
  if value.numerator = 0 then 0
  else
    let exponent := max (value.log2 - fraction) least
    let scaled : Ratio :=
      if 0 ≤ exponent then ⟨value.numerator, value.denominator * 2 ^ exponent.toNat⟩
      else ⟨value.numerator * 2 ^ (-exponent).toNat, value.denominator⟩
    let below := scaled.numerator / scaled.denominator
    let twice := 2 * (scaled.numerator % scaled.denominator)
    let rounded :=
      if twice > scaled.denominator ∨ (twice = scaled.denominator ∧ below % 2 = 1) then
        below + 1
      else below
    -- A carry into the hidden bit moves to the next exponent by itself.
    min ((exponent - least).toNat * 2 ^ fraction + rounded) (top * 2 ^ fraction)

/-- The value nearest to a signed ratio. -/
def ofRatio (negative : Bool) (value : Ratio) : Binary64 :=
  ofParts negative (roundRatio 52 (-1074) 2047 value)

def ofInt (value : Int) : Binary64 :=
  ofRatio (value < 0) ⟨value.natAbs, 1⟩

/-- The magnitude of a finite value. -/
def magnitude (value : Binary64) : Ratio :=
  Ratio.ofScaled value.mantissa value.scale 1075

def isFinite (value : Binary64) : Bool :=
  value.exponentBits != 2047

def infinity (negative : Bool) : Binary64 :=
  ofParts negative (2047 * 2 ^ 52)

def nan : Binary64 :=
  ofParts false (2047 * 2 ^ 52 + 2 ^ 51)

/-- The product, rounded. -/
def mul (left right : Binary64) : Binary64 :=
  let negative := left.isNegative != right.isNegative
  if left.isNan || right.isNan then nan
  else if left.isInfinite || right.isInfinite then
    if left.isZero || right.isZero then nan else infinity negative
  else
    ofRatio negative ⟨left.magnitude.numerator * right.magnitude.numerator,
      left.magnitude.denominator * right.magnitude.denominator⟩

/-- An integral power by repeated squaring, every product rounded. -/
def powi (base result : Binary64) : Nat → Nat → Binary64
  | 0, _ => result
  | steps + 1, exponent =>
      let result := if exponent % 2 = 1 then result.mul base else result
      if exponent / 2 = 0 then result else powi (base.mul base) result steps (exponent / 2)

/-- The integer a finite value without a fractional part is. -/
def whole (value : Binary64) : Option Int :=
  let exact := value.magnitude
  if value.isFinite ∧ exact.numerator % exact.denominator = 0 then
    some (if value.isNegative then -(exact.numerator / exact.denominator : Nat)
      else (exact.numerator / exact.denominator : Nat))
  else
    none

/-- The integer nearest to a finite value, ties away from zero. -/
def round (value : Binary64) : Int :=
  let exact := value.magnitude
  let nearest : Nat :=
    (2 * exact.numerator + exact.denominator) / (2 * exact.denominator)
  if value.isNegative then -nearest else nearest

/-- The nearest `binary32` value. -/
def toBinary32 (value : Binary64) : Binary32 :=
  let sign := if value.isNegative then 2 ^ 31 else 0
  if value.isNan then
    BitVec.ofNat 32 (sign + 255 * 2 ^ 23 + (2 ^ 22 ||| value.fractionBits / 2 ^ 29))
  else if value.isInfinite then
    BitVec.ofNat 32 (sign + 255 * 2 ^ 23)
  else
    BitVec.ofNat 32 (sign + roundRatio 23 (-149) 255 value.magnitude)

def isInfinite32 (value : Binary32) : Bool :=
  value.toNat % 2 ^ 31 == 255 * 2 ^ 23

/-- `digits * 10 ^ exponent`, rounded.  Exponents far outside the range are cut off
before the power is computed. -/
def ofDecimal (negative : Bool) (digits : Nat) (exponent : Int) : Binary64 :=
  if digits = 0 then ofParts negative 0
  else
    let places : Int := (Nat.toDigits 10 digits).length + exponent
    if places > 400 then infinity negative
    else if places < -400 then ofParts negative 0
    else ofRatio negative (.ofDecimal digits exponent)

/-- The exponent part of a decimal literal: nothing, or `e` and an integer. -/
def parseExponent : List Char → Option Int
  | [] => some 0
  | mark :: rest =>
      if mark = 'e' ∨ mark = 'E' then
        let (negative, digits) := match rest with
          | '-' :: digits => (true, digits)
          | '+' :: digits => (false, digits)
          | _ => (false, rest)
        if digits ≠ [] ∧ digits.all Char.isDigit = true then
          let value : Int := Nat.ofDigitChars 10 digits 0
          some (if negative then -value else value)
        else none
      else none

/-- A decimal literal without a sign. -/
def parseUnsignedLiteral (negative : Bool) (text : List Char) : Option Binary64 :=
  let lower := text.map Char.toLower
  if lower = "inf".toList ∨ lower = "infinity".toList then some (infinity negative)
  else if lower = "nan".toList then some (ofParts negative (nan.toNat % 2 ^ 63))
  else
    let front := text.takeWhile Char.isDigit
    let afterFront := text.dropWhile Char.isDigit
    let (back, tail) := match afterFront with
      | '.' :: rest => (rest.takeWhile Char.isDigit, rest.dropWhile Char.isDigit)
      | _ => ([], afterFront)
    if front = [] ∧ back = [] then none
    else (parseExponent tail).map fun exponent =>
      ofDecimal negative (Nat.ofDigitChars 10 (front ++ back) 0) (exponent - back.length)

/-- Parse a literal as `str::parse::<f64>` does. -/
def parse : List Char → Option Binary64
  | '-' :: rest => parseUnsignedLiteral true rest
  | '+' :: rest => parseUnsignedLiteral false rest
  | text => parseUnsignedLiteral false text

example : parse "1.5e3".toList = some (ofInt 1500) := by decide

end Binary64

end DfeClickhouse.Library
