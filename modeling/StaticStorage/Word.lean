/-!
# Machine words

Row numbers, sizes and offsets are 32-bit words. Sums of sizes are checked: a sum that does not fit a
word has no value at all, so a size can neither wrap around nor pass for a smaller one.

* `add?_eq_some_iff`, `add?_eq_none_iff` — a checked sum is the sum of the natural numbers whenever
  that sum is a word, and nothing otherwise.
* `toNat_clamp` — a table length as a word, held at the largest word.
-/

namespace StaticStorage.Word

/-- The largest word. -/
def largest : UInt32 := 0xFFFFFFFF

/-- The sum of two words, or nothing when a word cannot hold it. -/
def add? (a b : UInt32) : Option UInt32 :=
  if a.toNat + b.toNat < UInt32.size then some (a + b) else none

/-- The least multiple of `alignment` that is not below `n`, or nothing when a word cannot hold it. -/
def alignUp? (n alignment : UInt32) : Option UInt32 :=
  if n % alignment = 0 then some n else add? n (alignment - n % alignment)

/-- A count as a word; counts past the largest word stay there. -/
def clamp (count : Nat) : UInt32 :=
  if count < UInt32.size then UInt32.ofNat count else largest

/-- A number as a word, or nothing when a word cannot hold it. -/
def ofNat? (n : Nat) : Option UInt32 :=
  if n < UInt32.size then some (UInt32.ofNat n) else none

/-- A checked sum that exists is the sum of the natural numbers. -/
theorem add?_eq_some_iff {a b c : UInt32} : add? a b = some c ↔ c.toNat = a.toNat + b.toNat := by
  have hc : c.toNat < UInt32.size := UInt32.toNat_lt_size c
  unfold add?
  split
  · next h =>
    rw [Option.some.injEq, ← UInt32.toNat_inj, UInt32.toNat_add]
    simp only [UInt32.size] at h
    omega
  · next h =>
    simp only [reduceCtorEq, false_iff]
    omega

/-- A checked sum is missing exactly when a word cannot hold it. -/
theorem add?_eq_none_iff {a b : UInt32} : add? a b = none ↔ UInt32.size ≤ a.toNat + b.toNat := by
  unfold add?
  split <;> simp <;> omega

/-- A clamped count is the count itself, up to the largest word. -/
theorem toNat_clamp (count : Nat) : (clamp count).toNat = min count (UInt32.size - 1) := by
  unfold clamp largest
  split
  · next h =>
    rw [UInt32.toNat_ofNat']
    simp only [UInt32.size] at h ⊢
    omega
  · next h =>
    simp only [UInt32.size] at h ⊢
    show (4294967295 : Nat) = _
    omega

/-- A word is read back from its number. -/
theorem ofNat?_toNat (w : UInt32) : ofNat? w.toNat = some w := by
  rw [ofNat?, if_pos w.toNat_lt_size, UInt32.ofNat_toNat]

end StaticStorage.Word
