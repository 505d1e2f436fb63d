/-!
# Numerals

Natural numbers written in base sixteen, with lower-case digits, bare or behind the mark `0x`.
-/

namespace Nucleus

/-- The digits of a number in base sixteen, without leading zeros; zero has one digit. -/
def hexDigits (n : Nat) : List Char :=
  Nat.toDigits 16 n

/-- A number in base sixteen. -/
def hexText (n : Nat) : String :=
  String.ofList (hexDigits n)

/-- A number in base sixteen behind the mark `0x`. -/
def hexMarked (n : Nat) : String :=
  "0x" ++ hexText n

/-- A number in base sixteen behind the mark `0x`, filled up with zeros in front to at least `width` digits. -/
def hexPadded (width n : Nat) : String :=
  "0x" ++ String.ofList (List.replicate (width - (hexDigits n).length) '0' ++ hexDigits n)

end Nucleus
