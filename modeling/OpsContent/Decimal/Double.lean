/-!
# Decimal text of double-precision numbers

A number is written with the fewest digits that read back as the same number; of two such
decimals the nearer one is taken, and of two equally near ones the even one. All arithmetic is
exact: the number is a quotient of naturals, and so are the ends of the interval of reals that
round to it.
-/

namespace OpsContent

/-- A number of double precision, by its bits. -/
structure Double where
  bits : UInt64
  deriving DecidableEq

namespace Double

def toFloat (value : Double) : Float :=
  Float.ofBits value.bits

def ofFloat (value : Float) : Double :=
  ⟨value.toBits⟩

def isNegative (value : Double) : Bool :=
  value.bits >>> 63 == 1

def scaleBits (value : Double) : Nat :=
  ((value.bits >>> 52) &&& 0x7FF).toNat

def fractionBits (value : Double) : Nat :=
  (value.bits &&& 0xFFFFFFFFFFFFF).toNat

/-- Is this neither infinite nor no number at all? -/
def isFinite (value : Double) : Bool :=
  value.scaleBits != 0x7FF

/-- Some digits and the power of ten that they are multiplied by. -/
structure Decimal where
  digits : Nat
  power : Int
  deriving DecidableEq

/-- A magnitude between the ends of the interval that rounds to it, all over one denominator. -/
structure Rounding where
  value : Nat
  low : Nat
  high : Nat
  denominator : Nat
  closed : Bool

/-- The magnitude of a number with its rounding interval. The interval is closed for an even
significand, and reaches half as far down at a power of two. -/
def rounding (value : Double) : Rounding :=
  let fraction := value.fractionBits
  let scale := value.scaleBits
  let significand := if scale = 0 then fraction else fraction + 0x10000000000000
  let exponent : Int := (if scale = 0 then 1 else scale) - 1077
  let unit := Nat.pow 2 exponent.toNat
  let below := if fraction = 0 ∧ 1 < scale then 1 else 2
  { value := 4 * significand * unit
    low := (4 * significand - below) * unit
    high := (4 * significand + 2) * unit
    denominator := Nat.pow 2 (-exponent).toNat
    closed := significand % 2 = 0 }

namespace Rounding

/-- Does `digits * 10 ^ power` round to the number? -/
def admits (interval : Rounding) (digits : Nat) (power : Int) : Bool :=
  let scaled := digits * Nat.pow 10 power.toNat * interval.denominator
  let factor := Nat.pow 10 (-power).toNat
  if interval.closed then interval.low * factor ≤ scaled && scaled ≤ interval.high * factor
  else interval.low * factor < scaled && scaled < interval.high * factor

/-- Distance of `digits * 10 ^ power` from the number, in a unit that depends on the power only. -/
def distance (interval : Rounding) (digits : Nat) (power : Int) : Nat :=
  let scaled := digits * Nat.pow 10 power.toNat * interval.denominator
  let exact := interval.value * Nat.pow 10 (-power).toNat
  (scaled - exact) + (exact - scaled)

/-- The nearer admitted neighbour of the number on the grid of a power of ten. -/
def nearest? (interval : Rounding) (power : Int) : Option Decimal :=
  let lower := interval.value * Nat.pow 10 (-power).toNat /
    (interval.denominator * Nat.pow 10 power.toNat)
  let upper := lower + 1
  match interval.admits lower power && lower != 0, interval.admits upper power with
  | false, false => none
  | true, false => some ⟨lower, power⟩
  | false, true => some ⟨upper, power⟩
  | true, true =>
    let down := interval.distance lower power
    let up := interval.distance upper power
    if down < up || (down == up && lower % 2 == 0) then some ⟨lower, power⟩
    else some ⟨upper, power⟩

/-- The first admitted decimal on grids from coarse to fine. -/
def search (interval : Rounding) : Nat → Int → Decimal
  | 0, power => ⟨0, power⟩
  | fuel + 1, power =>
    match interval.nearest? power with
    | some found => found
    | none => search interval fuel (power - 1)

end Rounding

/-- Remove trailing zeros of the digits. -/
def Decimal.strip : Nat → Decimal → Decimal
  | 0, decimal => decimal
  | fuel + 1, decimal =>
    if decimal.digits ≠ 0 ∧ decimal.digits % 10 = 0 then
      strip fuel ⟨decimal.digits / 10, decimal.power + 1⟩
    else decimal

/-- The fewest digits that read back as the magnitude of the number. -/
def shortest (value : Double) : Decimal :=
  if value.scaleBits = 0 ∧ value.fractionBits = 0 then ⟨0, 0⟩
  else
    let interval := value.rounding
    let size := (Nat.toDigits 10 (interval.high / interval.denominator)).length
    let start : Int :=
      if interval.denominator ≤ interval.high then size
      else 1 - (Nat.toDigits 10 (interval.denominator / interval.high)).length
    (interval.search 400 start).strip 20

/-- The exponents that are written without an exponent part. -/
structure Format where
  positional : Int → Bool

/-- A decimal without sign: positional with at least one place, or one digit, places and an
exponent with its sign. -/
def Decimal.text (format : Format) (decimal : Decimal) : String :=
  let digits := Nat.toDigits 10 decimal.digits
  let exponent : Int := decimal.power + digits.length - 1
  if decimal.digits = 0 then "0.0"
  else if format.positional exponent then
    if 0 ≤ decimal.power then
      String.ofList (digits ++ List.replicate decimal.power.toNat '0' ++ ['.', '0'])
    else
      let places := (-decimal.power).toNat
      if places < digits.length then
        let whole := digits.length - places
        String.ofList (digits.take whole ++ '.' :: digits.drop whole)
      else
        String.ofList ('0' :: '.' :: List.replicate (places - digits.length) '0' ++ digits)
  else
    let places := digits.drop 1
    let mark := if exponent < 0 then '-' else '+'
    String.ofList (digits.take 1 ++ (if places.isEmpty then [] else '.' :: places) ++
      'e' :: mark :: Nat.toDigits 10 exponent.natAbs)

/-- The shortest decimal that reads back as the number. -/
def text (format : Format) (value : Double) : String :=
  (if value.isNegative then "-" else "") ++ value.shortest.text format

def dataFormat : Format :=
  ⟨fun exponent => -5 ≤ exponent && exponent < 16⟩

def plainFormat : Format :=
  ⟨fun _ => true⟩

end Double

end OpsContent
