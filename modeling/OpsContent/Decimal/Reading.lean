import OpsContent.Decimal.Double

/-!
# Reading decimals

A decimal is digits with at most one point and an optional exponent. It is read as the nearest
double; one that is too large for a finite double is refused.
-/

namespace OpsContent.Double

def digitsValue (digits : List Char) : Nat :=
  digits.foldl (fun value digit => value * 10 + (digit.toNat - '0'.toNat)) 0

/-- The exponent behind its letter. -/
def exponent? (chars : List Char) : Option Int :=
  let (negative, digits) := match chars with
    | '-' :: rest => (true, rest)
    | '+' :: rest => (false, rest)
    | _ => (false, chars)
  if digits.isEmpty || !digits.all Char.isDigit then none
  else some (if negative then -(digitsValue digits : Int) else digitsValue digits)

/-- The nearest double of digits that are scaled by a power of ten. -/
def ofScaled? (digits : List Char) (exponent : Int) : Option Float :=
  let digits := digits.dropWhile (· == '0')
  let size := digits.length + exponent
  if digits.isEmpty || size < -400 then some 0.0
  else if 400 < size then none
  else
    let value := Float.ofScientific (digitsValue digits) (exponent < 0) exponent.natAbs
    if value.isInf then none else some value

/-- The double of a decimal without its sign. -/
def ofMagnitude? (chars : List Char) : Option Float :=
  let whole := chars.takeWhile Char.isDigit
  let (fraction, rest) := match chars.dropWhile Char.isDigit with
    | '.' :: rest => (rest.takeWhile Char.isDigit, rest.dropWhile Char.isDigit)
    | rest => ([], rest)
  if whole.isEmpty && fraction.isEmpty then none
  else
    let scale := -(fraction.length : Int)
    match rest with
    | [] => ofScaled? (whole ++ fraction) scale
    | letter :: rest =>
      if letter = 'e' ∨ letter = 'E' then
        (exponent? rest).bind fun exponent => ofScaled? (whole ++ fraction) (exponent + scale)
      else none

/-- The nearest number to a decimal. -/
def ofDecimal? : List Char → Option Double
  | '-' :: rest => (ofMagnitude? rest).map fun value => ofFloat (-value)
  | '+' :: rest => (ofMagnitude? rest).map ofFloat
  | chars => (ofMagnitude? chars).map ofFloat

end OpsContent.Double
