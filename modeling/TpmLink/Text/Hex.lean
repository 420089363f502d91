/-!
# Hexadecimal text

Addresses, register values and identifiers appear in messages as lower-case hexadecimal numerals,
either bare, marked by `0x`, or marked and padded with zeros to a fixed number of digits.
-/

namespace TpmLink.Hex

/-- Lower-case digits without leading zeros; zero is the single digit `0`. -/
def digits (n : Nat) : String := String.ofList (Nat.toDigits 16 n)

/-- The digits behind the mark `0x`. -/
def marked (n : Nat) : String := "0x" ++ digits n

/-- At least `count` digits behind the mark, filled up with zeros on the left. -/
def padded (count n : Nat) : String :=
  let shown := Nat.toDigits 16 n
  "0x" ++ String.ofList (List.replicate (count - shown.length) '0' ++ shown)

end TpmLink.Hex
