import StaticStorage.Proofs.Blob.Integers

/-!
# Handles, written and read

The code of a handle has room for thirty bits of the row, and a compressed integer for twenty-seven of them.
A row of up to thirty bits is written as it is, or rejected. Of a larger row the code keeps the low thirty
bits, and then it is a handle of another row that is written, unless these bits are too many themselves.

* `TypeHandle.ofCoded?_coded_eq` — what the code of a handle keeps is read back from it.
* `TypeHandle.coded_le_largest_iff` — which codes can be written.
* `SignatureWriter.conveys_iff` — which handles are conveyed, and what is read in place of the others.
-/

namespace StaticStorage

namespace TypeHandle

variable {handle : TypeHandle}

/-- The number of rows that codes tell apart. -/
def codedRows : ℕ := 0x40000000

/-- What its code keeps of a handle: the table, and the low thirty bits of the row. -/
def kept : TypeHandle → TypeHandle
  | typeDef type => typeDef ⟨type.row % 0x40000000⟩
  | typeRef row => typeRef (row % 0x40000000)
  | typeSpec row => typeSpec (row % 0x40000000)

theorem toNat_row_kept (handle : TypeHandle) :
    handle.kept.row.toNat = handle.row.toNat % codedRows := by
  cases handle <;> exact UInt32.toNat_mod _ _

theorem tag_kept (handle : TypeHandle) : handle.kept.tag = handle.tag := by cases handle <;> rfl

theorem coded_kept (handle : TypeHandle) : handle.kept.coded = handle.coded := by
  rw [← UInt32.toNat_inj, toNat_coded, toNat_coded, toNat_row_kept, tag_kept]
  simp only [codedRows, UInt32.size]
  omega

/-- What the code of a handle keeps is read back from it. -/
theorem ofCoded?_coded_eq (handle : TypeHandle) : ofCoded? handle.coded = some handle.kept := by
  rw [← coded_kept]
  apply ofCoded?_coded
  rw [toNat_row_kept]
  exact Nat.mod_lt _ (by decide)

/-- Nothing is lost of a row of up to thirty bits. -/
theorem kept_eq_self_iff : handle.kept = handle ↔ handle.row.toNat < codedRows := by
  constructor
  · intro h
    rw [← h, toNat_row_kept]
    exact Nat.mod_lt _ (by decide)
  · intro h
    have hrow : handle.kept.row = handle.row := by
      rw [← UInt32.toNat_inj, toNat_row_kept, Nat.mod_eq_of_lt h]
    cases handle with
    | typeDef type => exact congrArg (fun row => typeDef ⟨row⟩) hrow
    | typeRef row => exact congrArg typeRef hrow
    | typeSpec row => exact congrArg typeSpec hrow

/-- The tag takes two of the twenty-nine bits that can be written. -/
theorem coded_le_largest_iff :
    handle.coded ≤ Compressed.largest ↔ handle.row.toNat % codedRows ≤ largestRow.toNat := by
  have htag := handle.toNat_tag_lt
  have hlargest : Compressed.largest.toNat = 0x1FFFFFFF := rfl
  have hrow : largestRow.toNat = 0x7FFFFFF := rfl
  rw [UInt32.le_iff_toNat_le, toNat_coded, hlargest, hrow]
  simp only [codedRows, UInt32.size]
  omega

/-- A written code is read as what it keeps of the handle. -/
theorem typeHandle_written (hle : handle.coded ≤ Compressed.largest) :
    (Cursor.start (Compressed.written handle.coded)).typeHandle =
      .done handle.kept ⟨(Compressed.written handle.coded).length, []⟩ := by
  obtain ⟨form, hbytes, hvalue, -⟩ := Compressed.exists_form_written hle
  rw [Cursor.typeHandle_eq_done]
  refine ⟨form, ?_, ?_⟩
  · rw [hbytes]
    exact Cursor.passes_start _
  · rw [IntegerForm.handle?, hvalue, UInt32.ofNat_toNat, ofCoded?_coded_eq]

end TypeHandle

namespace SignatureWriter

variable {w : SignatureWriter}

/-- Writing the handle fails in the end, or the bytes that it appends are read as this very handle, to the
last of them. -/
def Conveys (w : SignatureWriter) (handle : TypeHandle) : Prop :=
  (∃ fault, (w.typeHandle handle).finish = .error fault) ∨
    ∃ appended, (w.typeHandle handle).finish = .ok (w.bytes ++ appended) ∧
      (Cursor.start appended).typeHandle = .done handle ⟨appended.length, []⟩

theorem finish_typeHandle_of_le (hw : w.rejected = none) {handle : TypeHandle}
    (hle : handle.coded ≤ Compressed.largest) :
    (w.typeHandle handle).finish = .ok (w.bytes ++ Compressed.written handle.coded) := by
  rw [typeHandle, compressed, hw]
  dsimp only
  rw [Compressed.append_of_le hle, finish]

theorem finish_typeHandle_of_lt (hw : w.rejected = none) {handle : TypeHandle}
    (hlt : Compressed.largest < handle.coded) :
    (w.typeHandle handle).finish = .error (.tooLarge handle.coded) := by
  rw [typeHandle, compressed, hw]
  dsimp only
  rw [Compressed.append_of_lt hlt, finish]

/-- A handle is conveyed just when its row has thirty bits at most, or the low thirty bits of the row are too
many. In any case it is what the code keeps of the handle that is read from what was written. -/
theorem conveys_iff (hw : w.rejected = none) (handle : TypeHandle) :
    (w.Conveys handle ↔ handle.row.toNat < TypeHandle.codedRows ∨
      TypeHandle.largestRow.toNat < handle.row.toNat % TypeHandle.codedRows) ∧
    ∀ blob, (w.typeHandle handle).finish = .ok blob →
      ∃ appended, blob = w.bytes ++ appended ∧
        (Cursor.start appended).typeHandle = .done handle.kept ⟨appended.length, []⟩ := by
  rw [← TypeHandle.kept_eq_self_iff, ← Nat.not_le, ← TypeHandle.coded_le_largest_iff]
  by_cases hle : handle.coded ≤ Compressed.largest
  · have hfinish := finish_typeHandle_of_le hw hle
    have hread := TypeHandle.typeHandle_written hle
    refine ⟨⟨?_, ?_⟩, ?_⟩
    · rintro (⟨fault, hfault⟩ | ⟨appended, hok, hsame⟩)
      · rw [hfinish] at hfault
        cases hfault
      · rw [hfinish] at hok
        obtain rfl := List.append_cancel_left (Except.ok.inj hok)
        rw [hread] at hsame
        exact .inl (Read.done.inj hsame).1
    · rintro (hkept | hlt)
      · rw [hkept] at hread
        exact .inr ⟨_, hfinish, hread⟩
      · exact absurd hle hlt
    · intro blob hok
      rw [hfinish] at hok
      exact ⟨_, (Except.ok.inj hok).symm, hread⟩
  · have hfinish := finish_typeHandle_of_lt hw (UInt32.not_le.1 hle)
    refine ⟨iff_of_true (.inl ⟨_, hfinish⟩) (.inr hle), fun blob hok => ?_⟩
    rw [hfinish] at hok
    cases hok

/-- A field of a value type, up to the handle of the type. -/
def valueTypeField : SignatureWriter := (start .field).element .valueType

/-- A row of thirty-one bits is written as the first row. -/
theorem conveys_iff_valueTypeField :
    valueTypeField.rejected = none ∧
    (valueTypeField.Conveys (.typeRef 0x40000001) ↔
      (0x40000001 : UInt32).toNat < TypeHandle.codedRows ∨
        TypeHandle.largestRow.toNat < (0x40000001 : UInt32).toNat % TypeHandle.codedRows) ∧
    ∀ blob, (valueTypeField.typeHandle (.typeRef 0x40000001)).finish = .ok blob →
      ∃ appended, blob = valueTypeField.bytes ++ appended ∧
        (Cursor.start appended).typeHandle = .done (.typeRef 1) ⟨appended.length, []⟩ :=
  ⟨rfl, conveys_iff rfl (.typeRef 0x40000001)⟩

/-- No fault is reported of a row of thirty-one bits, and the bytes behind the tag are those of the first
row. -/
theorem not_conveys_wideRow :
    valueTypeField.rejected = none ∧ ¬ valueTypeField.Conveys (.typeRef 0x40000001) := by
  have hfinish : (valueTypeField.typeHandle (.typeRef 0x40000001)).finish =
      .ok (valueTypeField.bytes ++ [0x05]) := rfl
  refine ⟨rfl, ?_⟩
  rintro (⟨fault, hfault⟩ | ⟨appended, hok, hread⟩)
  · rw [hfinish] at hfault
    cases hfault
  · rw [hfinish] at hok
    obtain rfl := List.append_cancel_left (Except.ok.inj hok)
    have hfirst : (Cursor.start [0x05]).typeHandle = .done (.typeRef 1) ⟨1, []⟩ := rfl
    rw [hfirst] at hread
    exact absurd hread (by decide)

end SignatureWriter

end StaticStorage
