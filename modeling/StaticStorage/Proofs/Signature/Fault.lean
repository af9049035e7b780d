import Mathlib.Logic.ExistsUnique
import StaticStorage.Proofs.Signature.Prefix

/-!
# What a decoding fault says of the blob

A blob is no field signature for one of four reasons: its header is another one, it ends too early, a byte
that begins no integer stands where an integer is due, or a handle has the reserved tag. The fault that is
reported names the reason, and its position is where the blob shows it.

* `Cursor.compressed_eq_failed`, `Cursor.typeHandle_eq_failed` — how an integer and a handle can fail.
* `Cursor.fieldType_eq_failed` — a fault is found behind the tag that asked for what is not there.
* `FieldSignature.explained_of_decode` — a fault has one reason, and the blob shows it where the fault says.
-/

namespace StaticStorage

/-- A read of two parts fails when one of them does. -/
theorem Read.bind_eq_failed {α β : Type} {r : Read α} {continue_ : α → Cursor → Read β} {fault : BlobError}
    {last : Cursor} :
    r.bind continue_ = .failed fault last ↔ r = .failed fault last ∨
      ∃ first mid, r = .done first mid ∧ continue_ first mid = .failed fault last := by
  cases r with
  | done first mid =>
    constructor
    · intro h
      exact .inr ⟨first, mid, rfl, h⟩
    · rintro (h | ⟨first', mid', hfirst, h⟩)
      · cases h
      · cases hfirst
        exact h
  | failed fault' last' =>
    constructor
    · intro h
      cases h
      exact .inl rfl
    · rintro (h | ⟨first', mid', hfirst, -⟩)
      · cases h
        rfl
      · cases hfirst

/-- A read fails just when it fails before its value is changed. -/
theorem Read.map_eq_failed {α β : Type} {r : Read α} {change : α → β} {fault : BlobError} {last : Cursor} :
    r.map change = .failed fault last ↔ r = .failed fault last := by
  unfold Read.map
  rw [Read.bind_eq_failed]
  refine or_iff_left ?_
  rintro ⟨first, mid, -, h⟩
  cases h

/-- The fault is that the blob ends. -/
def BlobError.IsEnd (fault : BlobError) : Prop := ∃ offset, fault = .unexpectedEnd offset

/-! ## Integers and handles -/

namespace Cursor

variable {c mid last : Cursor} {fault : BlobError}

theorem byte_eq_failed (h : c.byte = .failed fault last) : fault.IsEnd := by
  obtain ⟨offset, rest⟩ := c
  cases rest with
  | nil =>
    cases h
    exact ⟨offset, rfl⟩
  | cons b rest => cases h

theorem element_eq_failed (h : c.element = .failed fault last) : fault.IsEnd :=
  byte_eq_failed (Read.map_eq_failed.1 h)

/-- An integer is not there because the blob ends, or because its first byte begins none; and then it is this
byte that has been consumed. -/
theorem compressed_eq_failed (h : c.compressed = .failed fault last) :
    fault.IsEnd ∨ ∃ lead, c.byte = .done lead last ∧ 0xE0 ≤ lead.toNat ∧
      fault = .reservedLead c.offset lead := by
  unfold compressed at h
  rcases Read.bind_eq_failed.1 h with h | ⟨lead, c₁, hlead, h⟩
  · exact .inl (byte_eq_failed h)
  · split at h
    · cases h
    · split at h
      · rcases Read.bind_eq_failed.1 h with h | ⟨_, _, -, h⟩
        · exact .inl (byte_eq_failed h)
        · cases h
      · split at h
        · rcases Read.bind_eq_failed.1 h with h | ⟨_, _, -, h⟩
          · exact .inl (byte_eq_failed h)
          rcases Read.bind_eq_failed.1 h with h | ⟨_, _, -, h⟩
          · exact .inl (byte_eq_failed h)
          rcases Read.bind_eq_failed.1 h with h | ⟨_, _, -, h⟩
          · exact .inl (byte_eq_failed h)
          · cases h
        · next hfour =>
          cases h
          exact .inr ⟨lead, hlead, Nat.le_of_not_lt hfour, rfl⟩

/-- A handle is not there because its integer is not, or because this integer has the reserved tag. -/
theorem typeHandle_eq_failed (h : c.typeHandle = .failed fault last) :
    c.compressed = .failed fault last ∨ ∃ word, c.compressed = .done word last ∧ word.toNat % 4 = 3 ∧
      fault = .reservedTag c.offset word := by
  unfold typeHandle at h
  rcases Read.bind_eq_failed.1 h with h | ⟨word, next, hword, h⟩
  · exact .inl h
  · split at h
    · cases h
    · next hnone =>
      cases h
      have hreserved : word.toNat % 4 = 3 := by
        by_contra htag
        have hsome := TypeHandle.isSome_ofCoded?_iff.2 htag
        rw [hnone] at hsome
        cases hsome
      exact .inr ⟨word, hword, hreserved, rfl⟩

/-! ## Types -/

/-- The bytes to come have the fault: where an integer is due behind a tag, they do not have it. -/
inductive Faulty (c : Cursor) : BlobError → Prop
  /-- Behind a modifier or a value type stands a byte that begins no integer. -/
  | lead {front : List UInt8} {tag : Element} {mid next : Cursor} {lead : UInt8}
    (hfront : c.Passes (front ++ [tag.raw]) mid) (htag : tag.isModifier = true ∨ tag = .valueType)
    (hlead : mid.byte = .done lead next) (hreserved : 0xE0 ≤ lead.toNat) :
    Faulty c (.reservedLead mid.offset lead)
  /-- Behind a value type stands an integer with the reserved tag. -/
  | tag {front : List UInt8} {mid next : Cursor} {word : UInt32}
    (hfront : c.Passes (front ++ [Element.valueType.raw]) mid) (hword : mid.compressed = .done word next)
    (hreserved : word.toNat % 4 = 3) : Faulty c (.reservedTag mid.offset word)

/-- A fault of what follows is a fault of the whole. -/
theorem Faulty.of_passes {bytes : List UInt8} (hpasses : c.Passes bytes mid) (h : mid.Faulty fault) :
    c.Faulty fault := by
  cases h with
  | @lead front _ _ _ _ hfront htag hlead hreserved =>
    have hall := passes_append.2 ⟨mid, hpasses, hfront⟩
    rw [← List.append_assoc] at hall
    exact .lead hall htag hlead hreserved
  | @tag front _ _ _ hfront hword hreserved =>
    have hall := passes_append.2 ⟨mid, hpasses, hfront⟩
    rw [← List.append_assoc] at hall
    exact .tag hall hword hreserved

/-- Behind the tag of a modifier or of a value type, an integer fails with a fault of the bytes. -/
theorem faulty_of_compressed {front : List UInt8} {tag : Element} (hfront : c.Passes (front ++ [tag.raw]) mid)
    (htag : tag.isModifier = true ∨ tag = .valueType) (h : mid.compressed = .failed fault last) :
    fault.IsEnd ∨ c.Faulty fault := by
  rcases compressed_eq_failed h with hend | ⟨lead, hlead, hreserved, rfl⟩
  · exact .inl hend
  · exact .inr (.lead hfront htag hlead hreserved)

theorem modifiedElement_eq_failed (h : c.modifiedElement = .failed fault last) :
    fault.IsEnd ∨ c.Faulty fault := by
  -- each modifier takes bytes, so that fewer are to come behind it
  induction hlength : c.rest.length using Nat.strongRecOn generalizing c with
  | _ length ih =>
    subst hlength
    rcases Read.bind_eq_failed.1 h with h | ⟨tag, c₁, htag, h⟩
    · exact .inl (element_eq_failed h)
    · have hfirst : c.Passes ([] ++ [tag.raw]) c₁ := byte_eq_done.1 (element_eq_done.1 htag)
      cases hmodifier : tag.isModifier with
      | true =>
        rw [skipModifiers_of_modifier hmodifier] at h
        rcases Read.bind_eq_failed.1 h with h | ⟨word, c₂, hword, h⟩
        · exact faulty_of_compressed hfirst (.inl hmodifier) h
        · have hshorter : c₂.rest.length < c.rest.length :=
            Nat.lt_trans (length_lt_of_compressed hword) (length_lt_of_element htag)
          obtain ⟨type, htype, -⟩ := compressed_eq_done.1 hword
          refine (ih _ hshorter h rfl).imp_right fun hfaulty => ?_
          exact .of_passes (passes_append.2 ⟨c₁, hfirst, htype⟩) hfaulty
      | false =>
        rw [skipModifiers_of_not_modifier hmodifier] at h
        cases h

theorem leadingElement_eq_failed (h : c.leadingElement = .failed fault last) :
    fault.IsEnd ∨ c.Faulty fault := by
  by_cases hsentinel : c.rest.head? = some Element.sentinel.raw
  · obtain ⟨rest, hrest⟩ := List.head?_eq_some_iff.1 hsentinel
    have hmark : c.Passes [Element.sentinel.raw] ⟨c.offset + 1, rest⟩ := ⟨hrest, rfl⟩
    rw [leadingElement, element_eq_done.2 (byte_eq_done.2 hmark), Read.bind, if_pos rfl] at h
    exact (modifiedElement_eq_failed h).imp_right (.of_passes hmark)
  · rw [leadingElement_of_head?_ne hsentinel] at h
    exact modifiedElement_eq_failed h

theorem storageElement_eq_failed (h : c.storageElement = .failed fault last) :
    fault.IsEnd ∨ c.Faulty fault := by
  rcases Read.bind_eq_failed.1 h with h | ⟨tag, c₁, htag, h⟩
  · exact leadingElement_eq_failed h
  · split at h
    · obtain ⟨first, hfirst, -⟩ := leadingElement_eq_done.1 htag
      exact (leadingElement_eq_failed h).imp_right (.of_passes hfirst)
    · cases h

end Cursor

/-- The bytes up to the tag that decides storage end with this tag. -/
theorem StorageForm.exists_bytes_eq (form : StorageForm) :
    ∃ front, form.bytes = front ++ [form.tag.raw] := by
  have htag (first : TagForm) : ∃ front, first.bytes = front ++ [first.tag.raw] :=
    ⟨_, (List.append_assoc _ _ _).symm⟩
  obtain ⟨first, second, hgeneric⟩ := form
  cases second with
  | none =>
    obtain ⟨front, hfront⟩ := htag first
    exact ⟨front, (List.append_nil _).trans hfront⟩
  | some second =>
    obtain ⟨front, hfront⟩ := htag second
    refine ⟨first.bytes ++ front, ?_⟩
    rw [List.append_assoc]
    exact congrArg (first.bytes ++ ·) hfront

namespace Cursor

variable {c last : Cursor} {fault : BlobError}

/-- A type is not there because the blob ends, or because of a fault of its bytes. -/
theorem fieldType_eq_failed (h : c.fieldType = .failed fault last) : fault.IsEnd ∨ c.Faulty fault := by
  rcases Read.bind_eq_failed.1 h with h | ⟨tag, c₁, htag, h⟩
  · exact storageElement_eq_failed h
  · split at h
    · next hvalue =>
      subst hvalue
      obtain ⟨form, hform, hvalue⟩ := storageElement_eq_done.1 htag
      obtain ⟨front, hfront⟩ := form.exists_bytes_eq
      rw [hfront, hvalue] at hform
      rcases Read.bind_eq_failed.1 h with h | ⟨_, _, -, h⟩
      · rcases typeHandle_eq_failed h with h | ⟨word, hword, hreserved, rfl⟩
        · exact faulty_of_compressed hform (.inr rfl) h
        · exact .inr (.tag hform hword hreserved)
      · cases h
    · cases h

end Cursor

/-! ## Signatures -/

/-- The reasons for which a blob is no field signature. -/
inductive SignatureFault where
  /-- The header announces another kind of signature. -/
  | header
  /-- The blob ends too early. -/
  | ending
  /-- A byte that begins no integer stands where an integer is due. -/
  | lead
  /-- A handle has the reserved tag. -/
  | tag
deriving DecidableEq

namespace SignatureFault

variable {blob : List UInt8} {e : SignatureError}

/-- The reason that an error names. No reading is at fault for a value that is too large to be written. -/
def named? : SignatureError → Option SignatureFault
  | .notAField _ => some header
  | .blob (.unexpectedEnd _) => some ending
  | .blob (.reservedLead _ _) => some lead
  | .blob (.reservedTag _ _) => some tag
  | .blob (.tooLarge _) => none

/-- The error names the reason, and the blob shows it where the error says. -/
def Explains (blob : List UInt8) (e : SignatureError) : SignatureFault → Prop
  | header => ∃ first : SignatureHeader, e = .notAField first ∧ blob[0]? = some first.raw ∧
      first.raw &&& 0x0F ≠ 0x06
  | ending => e = .blob (.unexpectedEnd blob.length)
  | lead => ∃ offset first before, e = .blob (.reservedLead offset first) ∧
      2 ≤ offset ∧ offset < blob.length ∧ blob[offset]? = some first ∧ 0xE0 ≤ first ∧
      blob[offset - 1]? = some before ∧
      before ∈ [Element.requiredModifier.raw, Element.optionalModifier.raw, Element.valueType.raw]
  | tag => ∃ offset coded next, e = .blob (.reservedTag offset coded) ∧
      2 ≤ offset ∧ blob[offset - 1]? = some Element.valueType.raw ∧ coded &&& 3 = 3 ∧
      Cursor.compressed ⟨offset, blob.drop offset⟩ = .done coded next

/-- A reason that explains an error is the one that it names. -/
theorem Explains.named?_eq {reason : SignatureFault} (h : reason.Explains blob e) :
    named? e = some reason := by
  cases reason with
  | header =>
    obtain ⟨_, rfl, -⟩ := h
    rfl
  | ending =>
    obtain rfl := h
    rfl
  | lead =>
    obtain ⟨_, _, _, rfl, -⟩ := h
    rfl
  | tag =>
    obtain ⟨_, _, _, rfl, -⟩ := h
    rfl

/-- The reserved tag is that of which both bits are set. -/
theorem and_three_eq_iff {word : UInt32} : word &&& 3 = 3 ↔ word.toNat % 4 = 3 := by
  rw [← UInt32.toNat_inj, TypeHandle.toNat_and_three]
  rfl

/-- Behind the header, what is wrong with the bytes is shown by the blob. -/
theorem exists_explains_of_faulty {first : UInt8} {rest : List UInt8} {fault : BlobError}
    (h : Cursor.Faulty ⟨1, rest⟩ fault) :
    ∃ reason : SignatureFault, reason.Explains (first :: rest) (.blob fault) := by
  cases h with
  | @lead front tag mid next lead hfront htag hlead hreserved =>
    obtain ⟨hrest, hoffset⟩ := hfront
    obtain ⟨hmid, -⟩ := Cursor.byte_eq_done.1 hlead
    dsimp only at hrest hoffset
    rw [List.length_append, List.length_singleton] at hoffset
    obtain rfl : rest = front ++ tag.raw :: lead :: next.rest := by
      rw [hrest, hmid, List.append_assoc]
      rfl
    refine ⟨.lead, mid.offset, lead, tag.raw, rfl, by omega, ?_, ?_, hreserved, ?_, ?_⟩
    · simp
      omega
    · rw [show mid.offset = front.length + 1 + 1 by omega]
      simp
    · rw [show mid.offset - 1 = front.length + 1 by omega]
      simp
    · rcases htag with hmodifier | rfl
      · simp only [Element.isModifier, Bool.or_eq_true, beq_iff_eq] at hmodifier
        rcases hmodifier with rfl | rfl <;> simp
      · simp
  | @tag front mid next word hfront hword hreserved =>
    obtain ⟨hrest, hoffset⟩ := hfront
    dsimp only at hrest hoffset
    rw [List.length_append, List.length_singleton] at hoffset
    obtain ⟨offset, midRest⟩ := mid
    dsimp only at hrest hoffset
    refine ⟨.tag, offset, word, next, rfl, by omega, ?_, and_three_eq_iff.2 hreserved, ?_⟩
    · rw [show offset - 1 = front.length + 1 by omega, hrest]
      simp
    · have hdrop : (first :: rest).drop offset = midRest := by
        rw [show offset = (first :: (front ++ [Element.valueType.raw])).length by simp; omega, hrest]
        exact List.drop_left
      rw [hdrop]
      exact hword

end SignatureFault

namespace FieldSignature

variable {blob : List UInt8} {e : SignatureError}

/-- A blob that is not decoded shows why. -/
theorem exists_explains_of_decode (h : decode blob = .error e) :
    ∃ reason : SignatureFault, reason.Explains blob e := by
  cases blob with
  | nil =>
    cases h
    exact ⟨.ending, rfl⟩
  | cons first rest =>
    have hdecode := h
    rw [decode_cons] at h
    split at h
    · cases hread : Cursor.fieldType ⟨1, rest⟩ with
      | done s next =>
        rw [hread] at h
        cases h
      | failed fault last =>
        rw [hread] at h
        obtain rfl : SignatureError.blob fault = e := Except.error.inj h
        rcases Cursor.fieldType_eq_failed hread with ⟨offset, rfl⟩ | hfaulty
        · -- a truncated blob is reported to end where it does
          rw [Truncated.decode_eq ⟨offset, hdecode⟩] at hdecode
          exact ⟨.ending, (Except.error.inj hdecode).symm⟩
        · exact SignatureFault.exists_explains_of_faulty hfaulty
    · next hfield =>
      cases h
      exact ⟨.header, ⟨first⟩, rfl, rfl, mt SignatureHeader.isField_iff.2 hfield⟩

/-- The blob is no field signature. -/
def Undecodable (blob : List UInt8) : Prop := ∃ e, decode blob = .error e

/-- What is reported further on is reported. -/
theorem undecodable_iff_of_shift {blob' : List UInt8} {n : ℕ}
    (h : decode blob' = (decode blob).mapError (SignatureError.shift n)) :
    Undecodable blob' ↔ Undecodable blob := by
  unfold Undecodable
  rw [h]
  cases decode blob with
  | ok s => exact iff_of_false nofun nofun
  | error e => exact ⟨fun _ => ⟨e, rfl⟩, fun _ => ⟨_, rfl⟩⟩

/-- A fault in decoding has just one reason, which it names, and the blob shows it where the fault says. No
value is too large to be read. Modifiers are no reason, whatever tags the integers have that name their types:
with any prefix more or less, a blob is decoded or is not. -/
theorem explained_of_decode (h : decode blob = .error e) :
    (∃! reason : SignatureFault, reason.Explains blob e) ∧ (∀ value, e ≠ .blob (.tooLarge value)) ∧
      ∀ (first : UInt8) (p : PrefixForm) (rest : List UInt8), rest.head? ≠ some Element.sentinel.raw →
        (Undecodable (first :: (p.bytes ++ rest)) ↔ Undecodable (first :: rest)) ∧
        ∀ q : PrefixForm, Undecodable (first :: (q.bytes ++ Element.genericInstance.raw :: (p.bytes ++ rest))) ↔
          Undecodable (first :: (q.bytes ++ Element.genericInstance.raw :: rest)) := by
  obtain ⟨reason, hreason⟩ := exists_explains_of_decode h
  refine ⟨⟨reason, hreason, fun reason' hreason' => ?_⟩, ?_, fun first p rest hrest => ⟨?_, fun q => ?_⟩⟩
  · exact Option.some.inj (hreason'.named?_eq.symm.trans hreason.named?_eq)
  · rintro value rfl
    cases hreason.named?_eq
  · exact undecodable_iff_of_shift (decode_cons_prefixed p hrest)
  · exact undecodable_iff_of_shift (decode_cons_genericInstance_prefixed q p hrest)

/-- Behind a modifier whose type has the reserved tag stands a value type whose handle has it, and only this
is a fault. -/
theorem explained_of_decode_reservedTag :
    decode [0x06, 0x20, 0x03, 0x11, 0x80, 0x07] = .error (.blob (.reservedTag 4 7)) ∧
      (∃! reason : SignatureFault,
        reason.Explains [0x06, 0x20, 0x03, 0x11, 0x80, 0x07] (.blob (.reservedTag 4 7))) ∧
      (∀ value, SignatureError.blob (.reservedTag 4 7) ≠ .blob (.tooLarge value)) ∧
      ∀ (first : UInt8) (p : PrefixForm) (rest : List UInt8), rest.head? ≠ some Element.sentinel.raw →
        (Undecodable (first :: (p.bytes ++ rest)) ↔ Undecodable (first :: rest)) ∧
        ∀ q : PrefixForm, Undecodable (first :: (q.bytes ++ Element.genericInstance.raw :: (p.bytes ++ rest))) ↔
          Undecodable (first :: (q.bytes ++ Element.genericInstance.raw :: rest)) := by
  have hdecode : decode [0x06, 0x20, 0x03, 0x11, 0x80, 0x07] = .error (.blob (.reservedTag 4 7)) := by cbv
  exact ⟨hdecode, explained_of_decode hdecode⟩

end FieldSignature

end StaticStorage
