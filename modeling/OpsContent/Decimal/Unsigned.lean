/-!
# Whole numbers of a limited size

Digits with an optional plus sign. Reading stops at the first character that is no digit or
makes the number too large.
-/

namespace OpsContent

/-- Why a text is not a number of a given width. -/
inductive UnsignedError where
  | empty
  | invalidDigit
  | tooLarge
  deriving DecidableEq

def UnsignedError.message : UnsignedError → String
  | .empty => "cannot parse integer from empty string"
  | .invalidDigit => "invalid digit found in string"
  | .tooLarge => "number too large to fit in target type"

namespace Unsigned

def largest16 : Nat := 0xFFFF

def largest64 : Nat := 0xFFFFFFFFFFFFFFFF

/-- One more digit, if the number stays small enough. -/
def appendDigit (largest value : Nat) (char : Char) : Except UnsignedError Nat :=
  if char.isDigit then
    let next := value * 10 + (char.toNat - '0'.toNat)
    if next ≤ largest then .ok next else .error .tooLarge
  else .error .invalidDigit

/-- Read a number without sign, up to a largest one. -/
def read (largest : Nat) (text : String) : Except UnsignedError Nat :=
  match text.toList with
  | [] => .error .empty
  | ['+'] => .error .invalidDigit
  | '+' :: digits => digits.foldlM (appendDigit largest) 0
  | digits => digits.foldlM (appendDigit largest) 0

end Unsigned

end OpsContent
