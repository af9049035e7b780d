/-!
# Hexadecimal numerals

Numbers inside messages are written in base sixteen, upper or lower case, with or without a least
number of digits.
-/

namespace StaticStorage.Hex

/-- The lower-case numeral of `n`, without leading zeros. -/
def lower (n : Nat) : String :=
  String.ofList (Nat.toDigits 16 n)

/-- The upper-case numeral of `n`, without leading zeros. -/
def upper (n : Nat) : String :=
  String.ofList ((Nat.toDigits 16 n).map Char.toUpper)

/-- The upper-case numeral of a byte, always two digits. -/
def byte (b : UInt8) : String :=
  if b.toNat < 16 then "0" ++ upper b.toNat else upper b.toNat

end StaticStorage.Hex
