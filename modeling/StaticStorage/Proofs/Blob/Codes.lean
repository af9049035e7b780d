import Mathlib.Data.Set.Function
import StaticStorage.Proofs.Blob.Handles
import StaticStorage.Proofs.Signature.Fault

/-!
# Words as codes of handles

The code of a handle is its row, moved up by two bits, with the tag of its table in the bits below. No room is
left for the two highest bits of the row, and no table has the tag `3`. But for that, words and handles are the
same thing: every word without the reserved tag is the code of one handle with a row of thirty bits, and the
words that can be written as compressed integers are the codes of the handles up to the largest row.

* `TypeHandle.ofCoded?_eq_some_iff` — a word stands for the one handle with a short row that it is the code of.
* `TypeHandle.coded_eq_coded_iff` — two handles share a code when their tables and the low bits of their rows do.
* `TypeHandle.coded_eq_shiftLeft_or`, `TypeHandle.bits_of_ofCoded?` — the bits of a code.
* `TypeHandle.bijOn_coded`, `TypeHandle.bijOn_coded_writable` — codes and handles, one by one.
* `TypeHandle.codesRows` — all of this together.
-/

namespace StaticStorage

namespace TypeHandle

variable {handle other : TypeHandle} {word : UInt32}

/-! ## Decoding undoes coding -/

/-- Only the reserved tag stands for nothing. -/
theorem ofCoded?_eq_none_iff : ofCoded? word = none ↔ word &&& 3 = 3 := by
  rw [SignatureFault.and_three_eq_iff, ← Option.not_isSome_iff_eq_none, isSome_ofCoded?_iff, not_not]

/-- A handle is read back from its code just when its code has room for the row. -/
theorem ofCoded?_coded_eq_some_iff :
    ofCoded? handle.coded = some handle ↔ handle.row.toNat < codedRows := by
  rw [ofCoded?_coded_eq, Option.some.injEq, kept_eq_self_iff]

/-- What a word stands for is the handle that it is the code of, among those whose code has room for the row. -/
theorem ofCoded?_eq_some_iff :
    ofCoded? word = some handle ↔ handle.coded = word ∧ handle.row.toNat < codedRows := by
  constructor
  · intro h
    obtain rfl := coded_of_ofCoded? h
    exact ⟨rfl, ofCoded?_coded_eq_some_iff.1 h⟩
  · rintro ⟨rfl, hrow⟩
    exact ofCoded?_coded_eq_some_iff.2 hrow

/-! ## What a code keeps apart -/

/-- Two handles share a code just when they share a table and the low thirty bits of the row. -/
theorem coded_eq_coded_iff : handle.coded = other.coded ↔
    handle.tag = other.tag ∧ handle.row.toNat % codedRows = other.row.toNat % codedRows := by
  constructor
  · intro h
    have hkept : handle.kept = other.kept := by
      rw [← Option.some.injEq, ← ofCoded?_coded_eq, ← ofCoded?_coded_eq, h]
    rw [← tag_kept handle, ← tag_kept other, ← toNat_row_kept, ← toNat_row_kept, hkept]
    exact ⟨rfl, rfl⟩
  · rintro ⟨htag, hrow⟩
    rw [← UInt32.toNat_inj, toNat_coded, toNat_coded, htag]
    simp only [codedRows, UInt32.size] at hrow ⊢
    omega

/-- Of a row that the code has room for, twenty-seven bits can be written. -/
theorem coded_le_largest_iff_of_lt (hrow : handle.row.toNat < codedRows) :
    handle.coded ≤ Compressed.largest ↔ handle.row ≤ largestRow := by
  rw [coded_le_largest_iff, Nat.mod_eq_of_lt hrow, UInt32.le_iff_toNat_le]

/-! ## The bits of a code -/

/-- The row stands above the tag. -/
theorem coded_eq_shiftLeft_or (handle : TypeHandle) :
    handle.coded = handle.row <<< 2 ||| handle.tag := by
  have htag := handle.toNat_tag_lt
  -- the two highest bits of the row leave the word, and the two that come in are free for the tag
  have hrow : (handle.row <<< 2).toNat = 2 ^ 2 * (handle.row.toNat % codedRows) := by
    rw [UInt32.toNat_shiftLeft, Nat.shiftLeft_eq]
    simp only [UInt32.reduceToNat, Nat.reduceMod, Nat.reducePow, codedRows]
    omega
  rw [← UInt32.toNat_inj, toNat_coded, UInt32.toNat_or, hrow, ← Nat.two_pow_add_eq_or_of_lt (by omega)]
  simp only [UInt32.size, codedRows]
  omega

/-- A word that stands for a handle has the row of the handle above its tag. -/
theorem bits_of_ofCoded? (h : ofCoded? word = some handle) :
    word &&& 3 = handle.tag ∧ word >>> 2 = handle.row := by
  obtain ⟨rfl, hrow⟩ := ofCoded?_eq_some_iff.1 h
  have htag := handle.toNat_tag_lt
  have hcoded : handle.coded.toNat = handle.row.toNat * 4 + handle.tag.toNat := by
    rw [toNat_coded]
    simp only [codedRows] at hrow
    simp only [UInt32.size]
    omega
  constructor
  · rw [← UInt32.toNat_inj, toNat_and_three, hcoded]
    omega
  · rw [← UInt32.toNat_inj, UInt32.toNat_shiftRight, hcoded, Nat.shiftRight_eq_div_pow]
    simp only [UInt32.reduceToNat, Nat.reduceMod, Nat.reducePow]
    omega

/-! ## Codes and handles, one by one -/

/-- The handles with a row of thirty bits have one code each, and these are the words without the reserved
tag. -/
theorem bijOn_coded :
    Set.BijOn coded {handle | handle.row.toNat < codedRows} {word | word &&& 3 ≠ 3} := by
  refine ⟨fun handle hrow hreserved => ?_, fun handle hrow other hother hcoded => ?_, fun word htag => ?_⟩
  · rw [← ofCoded?_eq_none_iff, ofCoded?_coded_eq_some_iff.2 hrow] at hreserved
    cases hreserved
  · have hback := ofCoded?_coded_eq_some_iff.2 hrow
    rw [hcoded, ofCoded?_coded_eq_some_iff.2 hother] at hback
    exact (Option.some.inj hback).symm
  · obtain ⟨handle, h⟩ := Option.ne_none_iff_exists'.1 (mt ofCoded?_eq_none_iff.1 htag)
    obtain ⟨hcoded, hrow⟩ := ofCoded?_eq_some_iff.1 h
    exact ⟨handle, hrow, hcoded⟩

/-- Codes have room for every row that can be written. -/
theorem lt_codedRows_of_le_largestRow (h : handle.row ≤ largestRow) : handle.row.toNat < codedRows :=
  Nat.lt_of_le_of_lt (UInt32.le_iff_toNat_le.1 h) (by decide)

/-- The handles up to the largest row have one code each, and these are the words without the reserved tag that
can be written. -/
theorem bijOn_coded_writable :
    Set.BijOn coded {handle | handle.row ≤ largestRow}
      {word | word &&& 3 ≠ 3 ∧ word ≤ Compressed.largest} := by
  refine ⟨fun handle hle => ?_, ?_, fun word ⟨htag, hle⟩ => ?_⟩
  · have hrow := lt_codedRows_of_le_largestRow hle
    exact ⟨bijOn_coded.mapsTo hrow, (coded_le_largest_iff_of_lt hrow).2 hle⟩
  · exact bijOn_coded.injOn.mono fun _ => lt_codedRows_of_le_largestRow
  · obtain ⟨handle, hrow, rfl⟩ := bijOn_coded.surjOn htag
    exact ⟨handle, (coded_le_largest_iff_of_lt hrow).1 hle, rfl⟩

/-- What is to be said of a word that is decoded. -/
structure DecodesExactly (word : UInt32) : Prop where
  eq_none_iff : ofCoded? word = none ↔ word &&& 3 = 3
  /-- The word is the code of what it stands for. -/
  coded_eq : ∀ handle, ofCoded? word = some handle → handle.coded = word
  bits : ∀ handle, ofCoded? word = some handle → word &&& 3 = handle.tag ∧ word >>> 2 = handle.row

/-- What is to be said of a handle that is coded. -/
structure CodedInBits (handle : TypeHandle) : Prop where
  bits : handle.coded = handle.row <<< 2 ||| handle.tag
  /-- The table is read back, and as much of the row as there was room for. -/
  exists_eq_some : ∃ back, ofCoded? handle.coded = some back ∧ back.tag = handle.tag ∧
    back.row.toNat = handle.row.toNat % codedRows
  eq_some_self_iff : ofCoded? handle.coded = some handle ↔ handle.row.toNat < codedRows
  /-- What is not read back makes no difference to the code. -/
  eq_iff : ∀ other : TypeHandle, handle.coded = other.coded ↔
    handle.tag = other.tag ∧ handle.row.toNat % codedRows = other.row.toNat % codedRows
  /-- The same rows can be written in every table. -/
  le_largest_iff : handle.row.toNat < codedRows →
    (handle.coded ≤ Compressed.largest ↔ handle.row ≤ largestRow)

/-- Words and handles are codes of each other, but for the reserved tag and the rows of more than thirty bits. -/
theorem codesRows :
    (∀ word, DecodesExactly word) ∧ (∀ handle, CodedInBits handle) ∧
    Set.BijOn coded {handle | handle.row.toNat < codedRows} {word | word &&& 3 ≠ 3} ∧
    Set.BijOn coded {handle | handle.row ≤ largestRow}
      {word | word &&& 3 ≠ 3 ∧ word ≤ Compressed.largest} := by
  refine ⟨fun word => ?_, fun handle => ?_, bijOn_coded, bijOn_coded_writable⟩
  · exact
      { eq_none_iff := ofCoded?_eq_none_iff
        coded_eq := fun _ => coded_of_ofCoded?
        bits := fun _ => bits_of_ofCoded? }
  · exact
      { bits := handle.coded_eq_shiftLeft_or
        exists_eq_some := ⟨handle.kept, handle.ofCoded?_coded_eq, handle.tag_kept, handle.toNat_row_kept⟩
        eq_some_self_iff := ofCoded?_coded_eq_some_iff
        eq_iff := fun _ => coded_eq_coded_iff
        le_largest_iff := coded_le_largest_iff_of_lt }

/-- The largest row can be written in the table with the highest tag, and the next row in no table. -/
example : (typeSpec largestRow).coded ≤ Compressed.largest ∧
    Compressed.largest < (typeDef ⟨largestRow + 1⟩).coded := by decide

end TypeHandle

end StaticStorage
