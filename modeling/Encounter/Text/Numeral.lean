/-!
# Unsigned decimal numerals

A numeral is an optional plus sign and one or more ASCII digits; leading zeros are allowed and a
minus sign never is. A numeral whose value is not below the bound is refused.
-/

namespace Encounter.Text

/-- The value of a string of decimal digits, most significant first. -/
def digitsValue (digits : List Char) : Nat := Nat.ofDigitChars 10 digits 0

/-- Drops one plus sign in front. -/
def dropPlus : List Char → List Char
  | '+' :: rest => rest
  | cs => cs

/-- The value of a numeral. -/
def numeral? (cs : List Char) : Option Nat :=
  let digits := dropPlus cs
  if digits.isEmpty || !digits.all Char.isDigit then none else some (digitsValue digits)

/-- The value of a numeral below `bound`. -/
def numeralBelow? (bound : Nat) (cs : List Char) : Option Nat :=
  (numeral? cs).filter (· < bound)

/-- The value of a numeral of at most eight bits. -/
def byte? (s : String) : Option UInt8 := (numeralBelow? UInt8.size s.toList).map UInt8.ofNat

/-- The value of a numeral of at most 32 bits. -/
def word? (s : String) : Option UInt32 := (numeralBelow? UInt32.size s.toList).map UInt32.ofNat

/-- The value of a numeral of at most 64 bits. -/
def size? (s : String) : Option Nat := numeralBelow? UInt64.size s.toList

/-- An integer with its sign always shown. -/
def signed (n : Int) : String := if n < 0 then toString n else "+" ++ toString n

end Encounter.Text
