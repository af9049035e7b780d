/-!
# Decimal numerals

A number is written in base ten without a sign and without leading zeros, and only that spelling is
read back: `read?_write` and `read?_eq_some_iff` say that reading undoes writing and accepts nothing else.
-/

namespace StaticStorage.Decimal

/-- The numeral of `n`. -/
def write (n : Nat) : String :=
  String.ofList (Nat.toDigits 10 n)

/-- The number whose numeral the text is, if there is one. -/
def read? (text : String) : Option Nat :=
  let n := Nat.ofDigitChars 10 text.toList 0
  if write n = text then some n else none

/-- A numeral reads back as its number. -/
theorem read?_write (n : Nat) : read? (write n) = some n := by
  simp [read?, write, Nat.ofDigitChars_ten_toDigits]

/-- Only numerals are read. -/
theorem read?_eq_some_iff {text : String} {n : Nat} : read? text = some n ↔ text = write n := by
  constructor
  · intro h
    simp only [read?, Option.ite_none_right_eq_some, Option.some.injEq] at h
    rw [← h.1, h.2]
  · rintro rfl
    exact read?_write n

end StaticStorage.Decimal
