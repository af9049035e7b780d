import Mathlib.Data.Nat.Find
import StaticStorage.Proofs.Blob.Locality

/-!
# Truncated and extended signatures

The decoding of a signature reads so many bytes of it and no more. Each proper prefix of these bytes is a
truncated signature, and is reported as one that ends where it does. All blobs that begin with these bytes
have one answer.

* `Cursor.localAt_fieldType` — the reads of a signature see only the bytes that they pass over.
* `Cursor.skipWithin_of_lt` — every round of the loop over modifiers takes two bytes.
* `FieldSignature.settles_decode` — truncated and extended signatures, and the end of the loop.
-/

namespace StaticStorage

/-! ## The reads of a signature -/

namespace Cursor

theorem localAt_skipModifiers (c : Cursor) (tag : Element) : LocalAt (skipModifiers · tag) c := by
  -- each modifier takes bytes, so that fewer are to come behind it
  induction hlength : c.rest.length using Nat.strongRecOn generalizing c tag with
  | _ length ih =>
    subst hlength
    cases hmodifier : tag.isModifier with
    | true =>
      simp only [skipModifiers_of_modifier hmodifier]
      refine (localAt_compressed c).bind fun word c₁ hword => ?_
      refine (localAt_element c₁).bind fun tag c₂ htag => ?_
      exact ih _ (Nat.lt_trans (length_lt_of_element htag) (length_lt_of_compressed hword)) _ _ rfl
    | false =>
      simp only [skipModifiers_of_not_modifier hmodifier]
      exact .done tag

theorem localAt_leadingElement (c : Cursor) : LocalAt leadingElement c := by
  unfold leadingElement
  refine (localAt_element c).bind fun tag c₁ _ => .ite (fun _ => ?_) fun _ => ?_
  · exact (localAt_element c₁).bind fun tag c₂ _ => localAt_skipModifiers c₂ tag
  · exact localAt_skipModifiers c₁ tag

theorem localAt_storageElement (c : Cursor) : LocalAt storageElement c := by
  unfold storageElement
  refine (localAt_leadingElement c).bind fun tag c₁ _ => ?_
  exact .ite (fun _ => localAt_leadingElement c₁) fun _ => .done tag

theorem localAt_fieldType (c : Cursor) : LocalAt fieldType c := by
  unfold fieldType
  refine (localAt_storageElement c).bind fun tag c₁ _ => ?_
  exact .ite (fun _ => (localAt_typeHandle c₁).map _) fun _ => .done _

/-! ## The loop over modifiers -/

/-- Pass over modifiers in a number of rounds; nothing, when there are not enough of them. -/
def skipWithin : ℕ → Cursor → Element → Option (Read Element)
  | 0, c, tag => if tag.isModifier then none else some (.done tag c)
  | rounds + 1, c, tag =>
    if tag.isModifier then
      match c.compressed with
      | .failed fault last => some (.failed fault last)
      | .done _ c₁ =>
        match c₁.element with
        | .failed fault last => some (.failed fault last)
        | .done tag c₂ => skipWithin rounds c₂ tag
    else some (.done tag c)

/-- Every round takes two bytes, or is the last one. -/
theorem skipWithin_of_lt {rounds : ℕ} {c : Cursor} (h : c.rest.length / 2 < rounds) (tag : Element) :
    skipWithin rounds c tag = some (c.skipModifiers tag) := by
  induction rounds generalizing c tag with
  | zero => cases h
  | succ rounds ih =>
    rw [skipWithin]
    cases hmodifier : tag.isModifier with
    | false => rw [if_neg Bool.false_ne_true, skipModifiers_of_not_modifier hmodifier]
    | true =>
      rw [if_pos rfl, skipModifiers_of_modifier hmodifier]
      cases hword : c.compressed with
      | failed fault last => rfl
      | done word c₁ =>
        cases htag : c₁.element with
        | failed fault last =>
          dsimp only [Read.bind]
          rw [htag]
        | done tag c₂ =>
          have hfirst := length_lt_of_compressed hword
          have hsecond := length_lt_of_element htag
          dsimp only [Read.bind]
          rw [htag]
          exact ih (by omega) tag

end Cursor

/-! ## Signatures -/

namespace FieldSignature

variable {blob : List UInt8}

/-- The blob is reported as one that ends in the middle of a signature. -/
def Truncated (blob : List UInt8) : Prop := ∃ offset, decode blob = .error (.blob (.unexpectedEnd offset))

/-- Behind the header of a field comes its type. -/
theorem decode_cons (header : UInt8) (rest : List UInt8) :
    decode (header :: rest) =
      if SignatureHeader.isField ⟨header⟩ then
        (Cursor.fieldType ⟨1, rest⟩).outcome.mapError .blob
      else .error (.notAField ⟨header⟩) := rfl

theorem truncated_cons_iff {header : UInt8} {rest : List UInt8} :
    Truncated (header :: rest) ↔
      SignatureHeader.isField ⟨header⟩ = true ∧ (Cursor.fieldType ⟨1, rest⟩).RanOut := by
  unfold Truncated
  rw [decode_cons]
  cases hfield : SignatureHeader.isField ⟨header⟩ with
  | false => exact iff_of_false nofun nofun
  | true =>
    rw [if_pos rfl]
    cases Cursor.fieldType ⟨1, rest⟩ with
    | done s next => exact iff_of_false nofun nofun
    | failed fault last =>
      rw [Read.ranOut_failed_iff]
      constructor
      · rintro ⟨offset, herror⟩
        exact ⟨rfl, offset, SignatureError.blob.inj (Except.error.inj herror)⟩
      · rintro ⟨-, offset, rfl⟩
        exact ⟨offset, rfl⟩

/-- A truncated signature is reported to end where the blob does. -/
theorem Truncated.decode_eq (h : Truncated blob) :
    decode blob = .error (.blob (.unexpectedEnd blob.length)) := by
  cases blob with
  | nil => rfl
  | cons header rest =>
    obtain ⟨hfield, hranOut⟩ := truncated_cons_iff.1 h
    rw [decode_cons, if_pos hfield, (Cursor.localAt_fieldType ⟨1, rest⟩).ranOut hranOut,
      List.length_cons, Nat.add_comm]
    rfl

/-- What comes behind a signature that is not truncated makes no difference. -/
theorem decode_append (h : ¬ Truncated blob) (more : List UInt8) :
    decode (blob ++ more) = decode blob := by
  cases blob with
  | nil => exact absurd ⟨0, rfl⟩ h
  | cons header rest =>
    rw [List.cons_append, decode_cons, decode_cons]
    split
    · next hfield =>
      have hranOut : ¬ (Cursor.fieldType ⟨1, rest⟩).RanOut := fun hranOut =>
        h (truncated_cons_iff.2 ⟨hfield, hranOut⟩)
      have hextend := (Cursor.localAt_fieldType ⟨1, rest⟩).extend hranOut more
      rw [Cursor.extend] at hextend
      rw [hextend]
      cases Cursor.fieldType ⟨1, rest⟩ <;> rfl
    · rfl

/-- The decoding of the blob reads its first `n` bytes, or would read so many. -/
structure Settles (blob : List UInt8) (n : ℕ) : Prop where
  /-- A cut among these bytes is reported where it was made. -/
  truncated : ∀ k < n, k ≤ blob.length → decode (blob.take k) = .error (.blob (.unexpectedEnd k))
  /-- Whatever begins with all of them has one answer, and is not truncated. -/
  settled : n ≤ blob.length → ∃ result, (∀ offset, result ≠ .error (.blob (.unexpectedEnd offset))) ∧
    ∀ other, blob.take n <+: other → decode other = result

theorem exists_settles (blob : List UInt8) : ∃ n, Settles blob n := by
  have htruncated {k : ℕ} (hle : k ≤ blob.length) (h : Truncated (blob.take k)) :
      decode (blob.take k) = .error (.blob (.unexpectedEnd k)) := by
    rw [h.decode_eq, List.length_take, Nat.min_eq_left hle]
  by_cases h : ∃ n, n ≤ blob.length ∧ ¬ Truncated (blob.take n)
  · -- the bytes that are read are the shortest prefix that is not truncated
    obtain ⟨n, ⟨-, hn⟩, hmin⟩ : ∃ n, (n ≤ blob.length ∧ ¬ Truncated (blob.take n)) ∧
        ∀ k < n, ¬ (k ≤ blob.length ∧ ¬ Truncated (blob.take k)) := by
      classical
      exact ⟨Nat.find h, Nat.find_spec h, fun k => Nat.find_min h⟩
    refine ⟨n, fun k hk hkle => htruncated hkle ?_, fun _ => ⟨decode (blob.take n), ?_, ?_⟩⟩
    · exact not_not.1 fun hnot => hmin k hk ⟨hkle, hnot⟩
    · exact fun offset herror => hn ⟨offset, herror⟩
    · rintro _ ⟨more, rfl⟩
      exact decode_append hn more
  · -- the blob itself is truncated, as are all its prefixes
    refine ⟨blob.length + 1, fun k _ hkle => htruncated hkle ?_, fun hle => ?_⟩
    · exact not_not.1 fun hnot => h ⟨k, hkle, hnot⟩
    · exact absurd hle (Nat.not_succ_le_self _)

/-- Of a blob so many bytes are read: whatever begins with them has one answer, and whatever is cut off among
them is reported as truncated where it was cut. So bytes behind an answer make no difference to it, and the
loop over modifiers has an end. -/
theorem settles_decode (blob : List UInt8) :
    (∃ n, Settles blob n) ∧
      (¬ Truncated blob → ∀ more, decode (blob ++ more) = decode blob) ∧
      ∀ offset tag rounds, blob.length / 2 < rounds →
        Cursor.skipWithin rounds ⟨offset, blob⟩ tag = some (Cursor.skipModifiers ⟨offset, blob⟩ tag) :=
  ⟨exists_settles blob, decode_append, fun _ tag _ h => Cursor.skipWithin_of_lt h tag⟩

end FieldSignature

end StaticStorage
