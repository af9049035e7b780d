import StaticStorage.Proofs.Blob.Integers

/-!
# What a finished signature holds

Every part of a signature comes down to strokes, and a finished signature is its header with the bytes of all
strokes behind it, in order. There is one thing that spoils it: an integer that is too large. The first such
integer is what finishing reports, and no part that is written later changes this.

* `Stroke.encodeAll_of_fits` — strokes that fit leave their bytes one behind the other.
* `Stroke.FirstExcess.encodeAll_eq` — otherwise their fault is the first integer that is too large.
* `SignatureWriter.finishes_parts` — what is finished after any parts.
-/

namespace StaticStorage

/-! ## Strokes that fit, and the first that does not -/

namespace Stroke

variable {strokes : List Stroke} {value : UInt32}

/-- The bytes that a stroke sets down. -/
def bytes : Stroke → List UInt8
  | raw bytes => bytes
  | compressed value => Compressed.written value

/-- No integer among the strokes is too large. -/
def Fits (strokes : List Stroke) : Prop :=
  ∀ value, compressed value ∈ strokes → value ≤ Compressed.largest

/-- The value is the first among the strokes that is too large. -/
def FirstExcess (strokes : List Stroke) (value : UInt32) : Prop :=
  ∃ before after, strokes = before ++ compressed value :: after ∧ Fits before ∧
    Compressed.largest < value

theorem fits_cons {stroke : Stroke} :
    Fits (stroke :: strokes) ↔
      (∀ value, stroke = compressed value → value ≤ Compressed.largest) ∧ Fits strokes := by
  simp only [Fits, List.mem_cons, or_imp, forall_and, eq_comm]

theorem FirstExcess.cons {stroke : Stroke}
    (hstroke : ∀ value, stroke = compressed value → value ≤ Compressed.largest)
    (h : FirstExcess strokes value) : FirstExcess (stroke :: strokes) value := by
  obtain ⟨before, after, rfl, hbefore, hlt⟩ := h
  exact ⟨stroke :: before, after, rfl, fits_cons.2 ⟨hstroke, hbefore⟩, hlt⟩

/-- Either all integers fit, or there is a first one that does not. -/
theorem fits_or_exists_firstExcess (strokes : List Stroke) :
    Fits strokes ∨ ∃ value, FirstExcess strokes value := by
  induction strokes with
  | nil => exact .inl fun value hmem => absurd hmem List.not_mem_nil
  | cons stroke strokes ih =>
    have hbehind (hstroke : ∀ value, stroke = compressed value → value ≤ Compressed.largest) :
        Fits (stroke :: strokes) ∨ ∃ value, FirstExcess (stroke :: strokes) value :=
      ih.imp (fun hfits => fits_cons.2 ⟨hstroke, hfits⟩) fun ⟨value, h⟩ => ⟨value, h.cons hstroke⟩
    cases stroke with
    | raw bytes => exact hbehind fun value hvalue => nomatch hvalue
    | compressed value =>
      by_cases hle : value ≤ Compressed.largest
      · refine hbehind fun value' hvalue' => ?_
        rwa [← compressed.inj hvalue']
      · exact .inr ⟨value, [], strokes, rfl, fun _ hmem => absurd hmem List.not_mem_nil,
          UInt32.not_le.1 hle⟩

/-- Strokes that fit in front of others go before them. -/
theorem encodeAll_append_of_fits (hfits : Fits strokes) (more : List Stroke) :
    encodeAll (strokes ++ more) = (encodeAll more).map (strokes.flatMap bytes ++ ·) := by
  induction strokes with
  | nil =>
    cases hmore : encodeAll more <;> simp [hmore, Except.map]
  | cons stroke strokes ih =>
    obtain ⟨hstroke, hrest⟩ := fits_cons.1 hfits
    have hencode : stroke.encode = .ok stroke.bytes := by
      cases stroke with
      | raw bytes => rfl
      | compressed value =>
        obtain ⟨form, hform, -⟩ := Compressed.exists_form_of_le (hstroke value rfl)
        rw [encode, bytes, Compressed.written, hform]
    rw [List.cons_append, encodeAll, hencode, ih hrest]
    cases encodeAll more <;> simp [bind, Except.bind, Except.map, pure, Except.pure]

/-- Strokes that fit leave their bytes one behind the other. -/
theorem encodeAll_of_fits (hfits : Fits strokes) : encodeAll strokes = .ok (strokes.flatMap bytes) := by
  have happend := encodeAll_append_of_fits hfits []
  rw [List.append_nil] at happend
  simp [happend, encodeAll, Except.map]

/-- The fault of strokes is the first integer that is too large. -/
theorem FirstExcess.encodeAll_eq (h : FirstExcess strokes value) :
    encodeAll strokes = .error (.tooLarge value) := by
  obtain ⟨before, after, rfl, hbefore, hlt⟩ := h
  have hencode : encode (compressed value) = .error (.tooLarge value) := Compressed.encode_of_lt hlt
  rw [encodeAll_append_of_fits hbefore, encodeAll, hencode]
  rfl

/-- The first integer that is too large stays the first, whatever is written behind. -/
theorem FirstExcess.append (h : FirstExcess strokes value) (more : List Stroke) :
    FirstExcess (strokes ++ more) value := by
  obtain ⟨before, after, rfl, hbefore, hlt⟩ := h
  exact ⟨before, after ++ more, by simp, hbefore, hlt⟩

end Stroke

/-! ## Finishing -/

namespace SignatureWriter

variable {header : SignatureHeader} {parts : List SignaturePart} {value : UInt32}

/-- The strokes of parts, in order. -/
def strokesOf (parts : List SignaturePart) : List Stroke := parts.flatMap SignaturePart.strokes

/-- A signature that is finished holds the header and what its strokes come to. -/
theorem finish_addAll_start (header : SignatureHeader) (parts : List SignaturePart) :
    ((start header).addAll parts).finish =
      (Stroke.encodeAll (strokesOf parts)).map (header.raw :: ·) := by
  rw [finish_addAll, strokesOf]
  cases Stroke.encodeAll (parts.flatMap SignaturePart.strokes) <;> rfl

theorem finish_addAll_of_fits (hfits : Stroke.Fits (strokesOf parts)) :
    ((start header).addAll parts).finish =
      .ok (header.raw :: (strokesOf parts).flatMap Stroke.bytes) := by
  rw [finish_addAll_start, Stroke.encodeAll_of_fits hfits]
  rfl

theorem finish_addAll_of_firstExcess (h : Stroke.FirstExcess (strokesOf parts) value) :
    ((start header).addAll parts).finish = .error (.tooLarge value) := by
  rw [finish_addAll_start, h.encodeAll_eq]
  rfl

/-- Finishing reports the first value that is too large, and nothing else. -/
theorem finish_addAll_eq_error_iff {fault : BlobError} :
    ((start header).addAll parts).finish = .error fault ↔
      ∃ value, Stroke.FirstExcess (strokesOf parts) value ∧ fault = .tooLarge value := by
  constructor
  · intro hfinish
    rcases Stroke.fits_or_exists_firstExcess (strokesOf parts) with hfits | ⟨value, hexcess⟩
    · rw [finish_addAll_of_fits hfits] at hfinish
      cases hfinish
    · rw [finish_addAll_of_firstExcess hexcess] at hfinish
      exact ⟨value, hexcess, (Except.error.inj hfinish).symm⟩
  · rintro ⟨value, hexcess, rfl⟩
    exact finish_addAll_of_firstExcess hexcess

/-- Without such a value, all strokes stand behind the header in order. -/
theorem finish_addAll_eq_ok_iff {blob : List UInt8} :
    ((start header).addAll parts).finish = .ok blob ↔
      Stroke.Fits (strokesOf parts) ∧ blob = header.raw :: (strokesOf parts).flatMap Stroke.bytes := by
  constructor
  · intro hfinish
    rcases Stroke.fits_or_exists_firstExcess (strokesOf parts) with hfits | ⟨value, hexcess⟩
    · rw [finish_addAll_of_fits hfits] at hfinish
      exact ⟨hfits, (Except.ok.inj hfinish).symm⟩
    · rw [finish_addAll_of_firstExcess hexcess] at hfinish
      cases hfinish
  · rintro ⟨hfits, rfl⟩
    exact finish_addAll_of_fits hfits

/-- What is finished after the parts, and what was finished on the way. -/
structure Finishes (header : SignatureHeader) (parts : List SignaturePart) : Prop where
  /-- Finishing reports the first value that is too large, and nothing else. -/
  eq_error_iff : ∀ fault, ((start header).addAll parts).finish = .error fault ↔
    ∃ value, Stroke.FirstExcess (strokesOf parts) value ∧ fault = .tooLarge value
  /-- No later part changes or clears this report. -/
  eq_error_append : ∀ fault more, ((start header).addAll parts).finish = .error fault →
    ((start header).addAll (parts ++ more)).finish = .error fault
  /-- Without such a value, all strokes stand behind the header in order. -/
  eq_ok_iff : ∀ blob, ((start header).addAll parts).finish = .ok blob ↔
    Stroke.Fits (strokesOf parts) ∧ blob = header.raw :: (strokesOf parts).flatMap Stroke.bytes
  /-- What was finished after some of the parts is what a finished signature begins with. -/
  eq_ok_front : ∀ n blob, ((start header).addAll parts).finish = .ok blob →
    ∃ front, ((start header).addAll (parts.take n)).finish = .ok front ∧ front <+: blob

/-- A signature of any parts is finished as its strokes say. -/
theorem finishes_parts (header : SignatureHeader) (parts : List SignaturePart) :
    Finishes header parts := by
  refine ⟨fun _ => finish_addAll_eq_error_iff, ?eq_error_append, fun _ => finish_addAll_eq_ok_iff,
    ?eq_ok_front⟩
  case eq_error_append =>
    intro fault more hfinish
    obtain ⟨value, hexcess, rfl⟩ := finish_addAll_eq_error_iff.1 hfinish
    refine finish_addAll_eq_error_iff.2 ⟨value, ?_, rfl⟩
    rw [strokesOf, List.flatMap_append]
    exact hexcess.append _
  case eq_ok_front =>
    intro n blob hfinish
    obtain ⟨hfits, rfl⟩ := finish_addAll_eq_ok_iff.1 hfinish
    have hstrokes : strokesOf parts = strokesOf (parts.take n) ++ strokesOf (parts.drop n) := by
      rw [strokesOf, strokesOf, strokesOf, ← List.flatMap_append, List.take_append_drop]
    have hfront : Stroke.Fits (strokesOf (parts.take n)) := fun value hvalue =>
      hfits value (hstrokes ▸ List.mem_append_left _ hvalue)
    refine ⟨_, finish_addAll_eq_ok_iff.2 ⟨hfront, rfl⟩, ?_⟩
    rw [hstrokes, List.flatMap_append, ← List.cons_append]
    exact List.prefix_append _ _

/-- A row that is too large stands behind one that fits, and in front of a value that is larger still. -/
example : ((start .field).addAll [.modifier true (.typeRef 0x7FFFFFF),
    .genericInstance true (.typeDef ⟨0x8000000⟩) [.sentinel], .compressed 0xFFFFFFFF, .raw [0x08]]).finish =
      .error (.tooLarge 0x20000000) := rfl

end SignatureWriter

end StaticStorage
