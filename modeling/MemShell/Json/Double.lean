import MemShell.Text.Basic

/-!
# Numbers of double precision

A double is a sign, a significand below 2^53 and a power of two. A decimal number is read as the
nearest double, a tie going to the even significand, and a double is written with the fewest digits
that read back as it.
-/

namespace MemShell

/-- A binary floating-point number with 53 bits of precision. -/
inductive Double
  /-- The number `significand * 2 ^ exponent`, or its negative. -/
  | finite (negative : Bool) (significand : Nat) (exponent : Int)
  /-- A number too large to represent. -/
  | infinite (negative : Bool)
  /-- Not a number. -/
  | nan
  deriving DecidableEq

namespace Double

/-- The number of bits of a significand. -/
def precision : Nat := 53

/-- The smallest exponent. -/
def minExponent : Int := -1074

/-- The largest exponent. -/
def maxExponent : Int := 971

/-- Whether a double is a zero. -/
def isZero : Double → Bool
  | finite _ significand _ => significand == 0
  | _ => false

/-- A quotient rounded to the nearest natural number, a tie going to the even one. -/
def roundHalfEven (numerator denominator : Nat) : Nat :=
  let quotient := numerator / denominator
  let twice := 2 * (numerator % denominator)
  if twice < denominator then quotient
  else if denominator < twice then quotient + 1
  else quotient + quotient % 2

/-- A natural number divided by a power of two, as a fraction. -/
def scaleDown (numerator denominator : Nat) (exponent : Int) : Nat × Nat :=
  if exponent ≥ 0 then (numerator, denominator * Nat.pow 2 exponent.toNat)
  else (numerator * Nat.pow 2 (-exponent).toNat, denominator)

/-- The double nearest to a positive fraction. -/
def ofFraction (negative : Bool) (numerator denominator : Nat) : Double :=
  let guess : Int := (numerator.log2 : Int) - denominator.log2 - precision
  let exponentOf (e : Int) : Int :=
    let (n, d) := scaleDown numerator denominator e
    if n / d ≥ Nat.pow 2 precision then e + 1 else e
  let exponent := max minExponent (exponentOf (exponentOf guess))
  let (n, d) := scaleDown numerator denominator exponent
  let rounded := roundHalfEven n d
  let (significand, exponent) :=
    if rounded ≥ Nat.pow 2 precision then (rounded / 2, exponent + 1) else (rounded, exponent)
  if exponent > maxExponent then infinite negative else finite negative significand exponent

/-- The double nearest to `digits * 10 ^ exponent`. -/
def ofDecimal (negative : Bool) (digits : Nat) (exponent : Int) : Double :=
  let magnitude : Int := (Text.ofNat digits).length + exponent
  if digits = 0 ∨ magnitude < -400 then finite negative 0 minExponent
  else if magnitude > 400 then infinite negative
  else if exponent ≥ 0 then ofFraction negative (digits * Nat.pow 10 exponent.toNat) 1
  else ofFraction negative digits (Nat.pow 10 (-exponent).toNat)

/-- The decimals of `count` digits next to a value, as a digit string read as a number and a power
of ten: the nearest one that lies between the given bounds, the even one of two equally near. The
value and the bounds are numerators over one denominator. -/
def nearestGridPoint (value low high denominator : Nat) (closed : Bool) (power : Int) :
    Option Nat :=
  let (unit, divisor) :=
    if power ≥ 0 then (denominator * Nat.pow 10 power.toNat, 1) else (denominator, Nat.pow 10 (-power).toNat)
  let inside (k : Nat) : Bool :=
    if closed then low * divisor ≤ k * unit && k * unit ≤ high * divisor
    else low * divisor < k * unit && k * unit < high * divisor
  let below := value * divisor / unit
  let nearest := roundHalfEven (value * divisor) unit
  let other := if nearest = below then below + 1 else below
  if inside nearest then some nearest else if inside other then some other else none

/-- The fewest digits that read back as a positive double, and the power of ten of the last one. -/
def shortest (significand : Nat) (exponent : Int) : Nat × Int :=
  -- value and bounds in quarters of the last bit
  let scale := if exponent ≥ 0 then Nat.pow 2 exponent.toNat else 1
  let denominator := 4 * (if exponent ≥ 0 then 1 else Nat.pow 2 (-exponent).toNat)
  let value := 4 * significand * scale
  let high := (4 * significand + 2) * scale
  let low :=
    if significand = Nat.pow 2 (precision - 1) ∧ exponent > minExponent then (4 * significand - 1) * scale
    else (4 * significand - 2) * scale
  -- the power of ten of the leading digit
  let leading : Int :=
    if value ≥ denominator then (Text.ofNat (value / denominator)).length - 1
    else -((Text.ofNat (denominator / value)).length : Int)
  let leading := if value * Nat.pow 10 (-leading).toNat ≥ 10 * denominator * Nat.pow 10 leading.toNat then
    leading + 1 else leading
  let tries := (List.range 18).findSome? fun (count : Nat) =>
    let power := leading - count
    (nearestGridPoint value low high denominator (significand % 2 == 0) power).map (·, power)
  tries.getD (value / denominator, 0)

/-- A digit string without the zeros at its end. -/
def trimZeros (digits : Text) : Text := (digits.reverse.dropWhile (· == '0')).reverse

/-- The written form of a positive double: positional between 10^-4 and 10^16, with a fraction of at
least one digit, and in scientific notation elsewhere. -/
def writePositive (significand : Nat) (exponent : Int) : Text :=
  let (number, power) := shortest significand exponent
  let all := Text.ofNat number
  let digits := trimZeros all
  let point : Int := all.length + power
  if -4 < point ∧ point ≤ 16 then
    if point ≤ 0 then "0." ++ List.replicate (-point).toNat '0' ++ digits
    else
      let whole := Text.padRight point.toNat '0' (digits.take point.toNat)
      let fraction := digits.drop point.toNat
      whole ++ "." ++ (if fraction.isEmpty then ['0'] else fraction)
  else
    let e := point - 1
    let fraction := digits.tail
    digits.take 1 ++ (if fraction.isEmpty then [] else '.' :: fraction) ++
      (if e < 0 then "e-" else "e+") ++ Text.padLeft 2 '0' (Text.ofNat e.natAbs)

/-- The written form of a double. -/
def toText : Double → Text
  | nan => "nan"
  | infinite negative => (if negative then ['-'] else []) ++ "inf".toList
  | finite negative significand exponent =>
    (if negative then ['-'] else []) ++
      (if significand = 0 then "0.0".toList else writePositive significand exponent)

end Double

end MemShell
