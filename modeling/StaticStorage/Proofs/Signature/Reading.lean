import StaticStorage.Proofs.Signature.Form

/-!
# Reading by the grammar

Each reader goes through just when the bytes to come begin with a form of its part of the grammar. It then
passes over the bytes of this form, and its value is the one that the form spells.

* `Cursor.compressed_eq_done` — an integer is read in each of its forms, the shortest or not.
* `Cursor.modified_eq_done` — the tag behind modifiers is read with the modifiers.
* `Cursor.fieldType_eq_done` — a type is read as far as storage asks for it.
* `FieldSignature.decode_eq_ok_iff` — what is decoded is spelled in the grammar, in one way.
-/

namespace StaticStorage

namespace Read

variable {α β : Type} {next : Cursor}

/-- A read of two parts goes through just when both parts do. -/
theorem bind_eq_done {r : Read α} {continue_ : α → Cursor → Read β} {value : β} :
    r.bind continue_ = .done value next ↔
      ∃ first mid, r = .done first mid ∧ continue_ first mid = .done value next := by
  cases r with
  | done first mid =>
    constructor
    · intro h
      exact ⟨first, mid, rfl, h⟩
    · rintro ⟨first', mid', hfirst, h⟩
      cases hfirst
      exact h
  | failed fault last => exact iff_of_false nofun fun ⟨_, _, hfirst, _⟩ => nomatch hfirst

theorem map_eq_done {r : Read α} {f : α → β} {value : β} :
    r.map f = .done value next ↔ ∃ first, r = .done first next ∧ f first = value := by
  unfold Read.map
  rw [bind_eq_done]
  constructor
  · rintro ⟨first, mid, hfirst, hdone⟩
    cases hdone
    exact ⟨first, hfirst, rfl⟩
  · rintro ⟨first, hfirst, rfl⟩
    exact ⟨first, next, hfirst, rfl⟩

/-- A read that goes through is reported as it is. -/
theorem mapError_outcome_eq_ok {ε : Type} {r : Read α} {report : BlobError → ε} {value : α} :
    r.outcome.mapError report = .ok value ↔ ∃ next, r = .done value next := by
  cases r with
  | done value' mid =>
    constructor
    · intro h
      exact ⟨mid, congrArg (Read.done · mid) (Except.ok.inj h)⟩
    · rintro ⟨next, hdone⟩
      cases hdone
      rfl
  | failed fault last => exact iff_of_false nofun nofun

end Read

namespace Cursor

variable {c next : Cursor}

/-! ## Bytes between cursors -/

/-- The bytes stand between the two cursors. -/
def Passes (c : Cursor) (bytes : List UInt8) (next : Cursor) : Prop :=
  c.rest = bytes ++ next.rest ∧ next.offset = c.offset + bytes.length

theorem passes_nil : c.Passes [] next ↔ next = c := by
  obtain ⟨offset, rest⟩ := c
  obtain ⟨offset', rest'⟩ := next
  simp [Passes, and_comm, eq_comm]

/-- A blob is passed over from its start to its end. -/
theorem passes_start (blob : List UInt8) : (start blob).Passes blob ⟨blob.length, []⟩ :=
  ⟨(List.append_nil _).symm, (Nat.zero_add _).symm⟩

/-- Bytes are passed over piece by piece. -/
theorem passes_append {front back : List UInt8} :
    c.Passes (front ++ back) next ↔ ∃ mid, c.Passes front mid ∧ mid.Passes back next := by
  constructor
  · rintro ⟨hrest, hoffset⟩
    refine ⟨⟨c.offset + front.length, back ++ next.rest⟩, ⟨?_, rfl⟩, rfl, ?_⟩
    · rw [hrest, List.append_assoc]
    · rw [hoffset, List.length_append, Nat.add_assoc]
  · rintro ⟨mid, ⟨hrest, hoffset⟩, hrest', hoffset'⟩
    refine ⟨?_, ?_⟩
    · rw [hrest, hrest', List.append_assoc]
    · rw [hoffset', hoffset, List.length_append, Nat.add_assoc]

/-- A byte is read when it comes first. -/
theorem byte_eq_done {b : UInt8} : c.byte = .done b next ↔ c.Passes [b] next := by
  obtain ⟨offset, rest⟩ := c
  obtain ⟨offset', rest'⟩ := next
  cases rest with
  | nil => simp [byte, Passes]
  | cons b' rest => simp [byte, Passes, eq_comm, and_comm, and_assoc]

theorem passes_cons {b : UInt8} {bytes : List UInt8} :
    c.Passes (b :: bytes) next ↔ ∃ mid, c.byte = .done b mid ∧ mid.Passes bytes next := by
  simp only [byte_eq_done]
  exact (passes_append : c.Passes ([b] ++ bytes) next ↔ _)

/-! ## Integers -/

/-- An integer that was read has been spelled in one of the forms. -/
theorem exists_form_of_compressed {word : UInt32} (h : c.compressed = .done word next) :
    ∃ form : IntegerForm, c.Passes form.bytes next ∧ UInt32.ofNat form.value = word := by
  unfold compressed at h
  obtain ⟨lead, c₁, hlead, h⟩ := Read.bind_eq_done.1 h
  split at h
  · next hone =>
    cases h
    exact ⟨.one lead hone, byte_eq_done.1 hlead, (IntegerForm.bigEndian_digits _).symm⟩
  · next hone =>
    split at h
    · next htwo =>
      obtain ⟨b₁, c₂, hb₁, h⟩ := Read.bind_eq_done.1 h
      cases h
      exact ⟨.two lead b₁ ⟨Nat.le_of_not_lt hone, htwo⟩,
        passes_cons.2 ⟨c₁, hlead, byte_eq_done.1 hb₁⟩, (IntegerForm.bigEndian_digits _).symm⟩
    · next htwo =>
      split at h
      · next hfour =>
        obtain ⟨b₁, c₂, hb₁, h⟩ := Read.bind_eq_done.1 h
        obtain ⟨b₂, c₃, hb₂, h⟩ := Read.bind_eq_done.1 h
        obtain ⟨b₃, c₄, hb₃, h⟩ := Read.bind_eq_done.1 h
        cases h
        exact ⟨.four lead b₁ b₂ b₃ ⟨Nat.le_of_not_lt htwo, hfour⟩,
          passes_cons.2 ⟨c₁, hlead, passes_cons.2 ⟨c₂, hb₁, passes_cons.2 ⟨c₃, hb₂,
            byte_eq_done.1 hb₃⟩⟩⟩, (IntegerForm.bigEndian_digits _).symm⟩
      · cases h

/-- An integer that comes first is read, in whichever form it is spelled. -/
theorem compressed_of_passes {form : IntegerForm} (h : c.Passes form.bytes next) :
    c.compressed = .done (UInt32.ofNat form.value) next := by
  rw [← form.bigEndian_digits, compressed, Read.bind_eq_done]
  cases form with
  | one lead hone => exact ⟨lead, next, byte_eq_done.2 h, if_pos hone⟩
  | two lead b₁ htwo =>
    obtain ⟨c₁, hlead, h⟩ := passes_cons.1 h
    have hone : ¬ lead < 0x80 := Nat.not_lt.2 htwo.1
    have htwo : lead < 0xC0 := htwo.2
    refine ⟨lead, c₁, hlead, ?_⟩
    rw [if_neg hone, if_pos htwo, Read.bind_eq_done]
    exact ⟨b₁, next, byte_eq_done.2 h, rfl⟩
  | four lead b₁ b₂ b₃ hfour =>
    obtain ⟨c₁, hlead, h⟩ := passes_cons.1 h
    obtain ⟨c₂, hb₁, h⟩ := passes_cons.1 h
    obtain ⟨c₃, hb₂, h⟩ := passes_cons.1 h
    have hone : ¬ lead < 0x80 := Nat.not_lt.2 (Nat.le_trans (by decide) hfour.1)
    have htwo : ¬ lead < 0xC0 := Nat.not_lt.2 hfour.1
    have hfour : lead < 0xE0 := hfour.2
    refine ⟨lead, c₁, hlead, ?_⟩
    rw [if_neg hone, if_neg htwo, if_pos hfour, Read.bind_eq_done]
    refine ⟨b₁, c₂, hb₁, Read.bind_eq_done.2 ⟨b₂, c₃, hb₂, Read.bind_eq_done.2 ?_⟩⟩
    exact ⟨b₃, next, byte_eq_done.2 h, rfl⟩

/-- An integer is read just when one of its forms comes first. -/
theorem compressed_eq_done {word : UInt32} :
    c.compressed = .done word next ↔
      ∃ form : IntegerForm, c.Passes form.bytes next ∧ UInt32.ofNat form.value = word := by
  constructor
  · exact exists_form_of_compressed
  · rintro ⟨form, hpasses, rfl⟩
    exact compressed_of_passes hpasses

theorem typeHandle_eq_done {handle : TypeHandle} :
    c.typeHandle = .done handle next ↔
      ∃ form : IntegerForm, c.Passes form.bytes next ∧ form.handle? = some handle := by
  unfold typeHandle
  rw [Read.bind_eq_done]
  constructor
  · rintro ⟨word, mid, hword, h⟩
    obtain ⟨form, hpasses, rfl⟩ := compressed_eq_done.1 hword
    split at h
    · next handle' hhandle =>
      cases h
      exact ⟨form, hpasses, hhandle⟩
    · cases h
  · rintro ⟨form, hpasses, hhandle⟩
    refine ⟨_, next, compressed_of_passes hpasses, ?_⟩
    rw [IntegerForm.handle?] at hhandle
    rw [hhandle]

/-! ## Tags -/

/-- A byte that stands for something is read as a byte. -/
theorem map_byte_eq_done {α : Type} {make : UInt8 → α} {raw : α → UInt8}
    (hmake : ∀ v, make (raw v) = v) (hraw : ∀ b, raw (make b) = b) {v : α} :
    c.byte.map make = .done v next ↔ c.byte = .done (raw v) next := by
  rw [Read.map_eq_done]
  constructor
  · rintro ⟨b, hb, rfl⟩
    rwa [hraw]
  · intro hb
    exact ⟨raw v, hb, hmake v⟩

theorem header_eq_done {header : SignatureHeader} :
    c.header = .done header next ↔ c.byte = .done header.raw next :=
  map_byte_eq_done (fun _ => rfl) fun _ => rfl

theorem element_eq_done {tag : Element} : c.element = .done tag next ↔ c.byte = .done tag.raw next :=
  map_byte_eq_done (fun _ => rfl) fun _ => rfl

theorem skipModifiers_of_modifier {tag : Element} (h : tag.isModifier = true) :
    c.skipModifiers tag =
      c.compressed.bind fun _ c₁ => c₁.element.bind fun tag c₂ => c₂.skipModifiers tag := by
  rw [skipModifiers, if_pos h]
  cases c.compressed with
  | failed fault last => rfl
  | done word c₁ =>
    dsimp only [Read.bind]
    cases c₁.element with
    | failed fault last => rfl
    | done tag c₂ => rfl

theorem skipModifiers_of_not_modifier {tag : Element} (h : tag.isModifier = false) :
    c.skipModifiers tag = .done tag c := by
  rw [skipModifiers, if_neg (by simp [h])]

/-- The tag behind modifiers is read with the modifiers in front of it. -/
theorem modified_eq_done {tag : Element} :
    (c.element.bind fun tag c₁ => c₁.skipModifiers tag) = .done tag next ↔
      tag.isModifier = false ∧ ∃ modifiers, c.Passes (TagForm.modifiedBytes modifiers tag) next := by
  constructor
  · intro h
    -- each modifier takes bytes, so that fewer are to come behind it
    induction hlength : c.rest.length using Nat.strongRecOn generalizing c with
    | _ length ih =>
      subst hlength
      obtain ⟨first, c₁, hfirst, hskip⟩ := Read.bind_eq_done.1 h
      cases hmodifier : first.isModifier with
      | true =>
        rw [skipModifiers_of_modifier hmodifier] at hskip
        obtain ⟨word, c₂, hword, hmore⟩ := Read.bind_eq_done.1 hskip
        have hshorter : c₂.rest.length < c.rest.length :=
          Nat.lt_trans (length_lt_of_compressed hword) (length_lt_of_element hfirst)
        obtain ⟨htag, modifiers, hpasses⟩ := ih _ hshorter hmore rfl
        obtain ⟨type, htype, -⟩ := compressed_eq_done.1 hword
        refine ⟨htag, ⟨first, hmodifier, type⟩ :: modifiers, ?_⟩
        rw [TagForm.modifiedBytes_cons, passes_cons]
        exact ⟨c₁, element_eq_done.1 hfirst, passes_append.2 ⟨c₂, htype, hpasses⟩⟩
      | false =>
        rw [skipModifiers_of_not_modifier hmodifier] at hskip
        cases hskip
        exact ⟨hmodifier, [], byte_eq_done.1 (element_eq_done.1 hfirst)⟩
  · rintro ⟨htag, modifiers, hpasses⟩
    induction modifiers generalizing c with
    | nil =>
      have hread : c.element = .done tag next := element_eq_done.2 (byte_eq_done.2 hpasses)
      exact Read.bind_eq_done.2 ⟨tag, next, hread, skipModifiers_of_not_modifier htag⟩
    | cons m modifiers ih =>
      rw [TagForm.modifiedBytes_cons, passes_cons] at hpasses
      obtain ⟨c₁, hbyte, hpasses⟩ := hpasses
      obtain ⟨c₂, htype, hmore⟩ := passes_append.1 hpasses
      refine Read.bind_eq_done.2 ⟨m.tag, c₁, element_eq_done.2 hbyte, ?_⟩
      rw [skipModifiers_of_modifier m.isModifier]
      exact Read.bind_eq_done.2 ⟨_, c₂, compressed_of_passes htype, ih hmore⟩

/-- A tag is read with its prefix. -/
theorem leadingElement_eq_done {tag : Element} :
    c.leadingElement = .done tag next ↔ ∃ form : TagForm, c.Passes form.bytes next ∧ form.tag = tag := by
  unfold leadingElement
  constructor
  · intro h
    obtain ⟨first, c₁, hfirst, h⟩ := Read.bind_eq_done.1 h
    split at h
    · next hsentinel =>
      subst hsentinel
      obtain ⟨htag, modifiers, hpasses⟩ := modified_eq_done.1 h
      refine ⟨⟨true, modifiers, tag, htag, nofun⟩, ?_, rfl⟩
      rw [TagForm.bytes_of_sentinel rfl, passes_cons]
      exact ⟨c₁, element_eq_done.1 hfirst, hpasses⟩
    · next hsentinel =>
      obtain ⟨htag, modifiers, hpasses⟩ :=
        modified_eq_done.1 (Read.bind_eq_done.2 ⟨first, c₁, hfirst, h⟩)
      refine ⟨⟨false, modifiers, tag, htag, ?_⟩, ?_, rfl⟩
      · rintro - rfl rfl
        have hread := element_eq_done.2 (byte_eq_done.2 hpasses)
        rw [hfirst] at hread
        cases hread
        exact hsentinel rfl
      · rwa [TagForm.bytes_of_no_sentinel rfl]
  · rintro ⟨form, hpasses, rfl⟩
    cases hsentinel : form.sentinel with
    | true =>
      rw [TagForm.bytes_of_sentinel hsentinel, passes_cons] at hpasses
      obtain ⟨c₁, hbyte, hmore⟩ := hpasses
      refine Read.bind_eq_done.2 ⟨.sentinel, c₁, element_eq_done.2 hbyte, ?_⟩
      rw [if_pos rfl]
      exact modified_eq_done.2 ⟨form.not_modifier, form.modifiers, hmore⟩
    | false =>
      have hrest := hpasses.1
      rw [TagForm.bytes_of_no_sentinel hsentinel] at hpasses
      have hread := modified_eq_done.2 ⟨form.not_modifier, form.modifiers, hpasses⟩
      obtain ⟨first, c₁, hfirst, hskip⟩ := Read.bind_eq_done.1 hread
      have hne : first ≠ .sentinel := by
        rintro rfl
        have hfront := (byte_eq_done.1 (element_eq_done.1 hfirst)).1
        exact form.bytes_ne_sentinel_cons hsentinel next.rest c₁.rest (hrest.symm.trans hfront)
      refine Read.bind_eq_done.2 ⟨first, c₁, hfirst, ?_⟩
      rwa [if_neg hne]

/-- The tag that decides storage is read with the generic mark in front of it, if there is one. -/
theorem storageElement_eq_done {tag : Element} :
    c.storageElement = .done tag next ↔
      ∃ form : StorageForm, c.Passes form.bytes next ∧ form.tag = tag := by
  unfold storageElement
  rw [Read.bind_eq_done]
  constructor
  · rintro ⟨mark, c₁, hmark, h⟩
    obtain ⟨first, hfirst, rfl⟩ := leadingElement_eq_done.1 hmark
    split at h
    · next hgeneric =>
      obtain ⟨second, hsecond, htag⟩ := leadingElement_eq_done.1 h
      exact ⟨⟨first, some second, iff_of_true rfl hgeneric⟩,
        passes_append.2 ⟨c₁, hfirst, hsecond⟩, htag⟩
    · next hgeneric =>
      cases h
      exact ⟨⟨first, none, iff_of_false Bool.false_ne_true hgeneric⟩,
        passes_append.2 ⟨_, hfirst, passes_nil.2 rfl⟩, rfl⟩
  · rintro ⟨⟨first, second, hgeneric⟩, hpasses, rfl⟩
    obtain ⟨c₁, hfirst, hmore⟩ := passes_append.1 hpasses
    refine ⟨first.tag, c₁, leadingElement_eq_done.2 ⟨first, hfirst, rfl⟩, ?_⟩
    cases second with
    | none =>
      obtain rfl := passes_nil.1 hmore
      exact if_neg (mt hgeneric.2 Bool.false_ne_true)
    | some second =>
      rw [if_pos (hgeneric.1 rfl)]
      exact leadingElement_eq_done.2 ⟨second, hmore, rfl⟩

end Cursor

/-! ## Types -/

namespace TypeForm

/-- What a type says about the storage of its field. -/
def signature (form : TypeForm) : FieldSignature :=
  ⟨form.storage.tag, form.handle.bind IntegerForm.handle?⟩

/-- The handle of a value type is never the reserved one. -/
theorem isSome_valueType_signature (form : TypeForm) :
    form.signature.valueType.isSome ↔ form.storage.tag = .valueType := by
  rw [← form.handle_iff, signature]
  cases hhandle : form.handle with
  | none => exact Iff.rfl
  | some integer =>
    exact iff_of_true (IntegerForm.isSome_handle?_iff.2 (form.not_reserved integer hhandle)) rfl

end TypeForm

namespace Cursor

variable {c next : Cursor}

/-- A type is read with the handle behind its tag, if there is one. -/
theorem fieldType_eq_done {s : FieldSignature} :
    c.fieldType = .done s next ↔ ∃ form : TypeForm, c.Passes form.bytes next ∧ form.signature = s := by
  unfold fieldType
  rw [Read.bind_eq_done]
  constructor
  · rintro ⟨tag, c₁, htag, h⟩
    obtain ⟨storage, hstorage, rfl⟩ := storageElement_eq_done.1 htag
    split at h
    · next hvalue =>
      obtain ⟨handle, hread, rfl⟩ := Read.map_eq_done.1 h
      obtain ⟨integer, hinteger, hhandle⟩ := typeHandle_eq_done.1 hread
      have hreserved : integer.value % 4 ≠ 3 := by
        rw [← IntegerForm.isSome_handle?_iff, hhandle]
        rfl
      refine ⟨⟨storage, some integer, iff_of_true rfl hvalue, ?_⟩, ?_, ?_⟩
      · rintro _ ⟨⟩
        exact hreserved
      · exact passes_append.2 ⟨c₁, hstorage, hinteger⟩
      · exact congrArg (FieldSignature.mk _) hhandle
    · next hvalue =>
      cases h
      exact ⟨⟨storage, none, iff_of_false Bool.false_ne_true hvalue, nofun⟩,
        passes_append.2 ⟨_, hstorage, passes_nil.2 rfl⟩, rfl⟩
  · rintro ⟨⟨storage, handle, hvalue, hreserved⟩, hpasses, rfl⟩
    obtain ⟨c₁, hstorage, hmore⟩ := passes_append.1 hpasses
    refine ⟨storage.tag, c₁, storageElement_eq_done.2 ⟨storage, hstorage, rfl⟩, ?_⟩
    cases handle with
    | none =>
      obtain rfl := passes_nil.1 hmore
      exact if_neg (mt hvalue.2 Bool.false_ne_true)
    | some integer =>
      obtain ⟨handle, hhandle⟩ :=
        Option.isSome_iff_exists.1 (IntegerForm.isSome_handle?_iff.2 (hreserved integer rfl))
      rw [if_pos (hvalue.1 rfl), Read.map_eq_done]
      exact ⟨handle, typeHandle_eq_done.2 ⟨integer, hmore, hhandle⟩,
        congrArg (FieldSignature.mk _) hhandle.symm⟩

end Cursor

/-! ## Signatures -/

/-- The form says this about its field: the tag that decides the storage and what this tag means for it,
and the handle of a value type. -/
structure FieldForm.Describes (form : FieldForm) (s : FieldSignature) : Prop where
  element_eq : s.element = form.type.storage.tag
  category_eq : s.category = form.type.storage.tag.category
  valueType_eq : s.valueType = form.type.handle.bind IntegerForm.handle?
  isSome_iff : s.valueType.isSome ↔ s.element = .valueType

/-- A form describes what its type says. -/
theorem FieldForm.describes_iff {form : FieldForm} {s : FieldSignature} :
    form.Describes s ↔ form.type.signature = s := by
  constructor
  · rintro ⟨helement, -, hvalue, -⟩
    cases s
    exact congr (congrArg FieldSignature.mk helement.symm) hvalue.symm
  · rintro rfl
    exact ⟨rfl, rfl, rfl, form.type.isSome_valueType_signature⟩

namespace FieldSignature

variable {blob : List UInt8} {s : FieldSignature}

/-- A blob is decoded by the form that spells it. -/
theorem decode_eq_ok_iff_exists_form :
    decode blob = .ok s ↔ ∃ form : FieldForm, form.bytes = blob ∧ form.type.signature = s := by
  unfold decode
  constructor
  · intro h
    split at h
    · cases h
    · next header c hheader =>
      obtain ⟨hblob, -⟩ := Cursor.byte_eq_done.1 (Cursor.header_eq_done.1 hheader)
      split at h
      · next hfield =>
        obtain ⟨next, hread⟩ := Read.mapError_outcome_eq_ok.1 h
        obtain ⟨type, ⟨hrest, -⟩, hsignature⟩ := Cursor.fieldType_eq_done.1 hread
        refine ⟨⟨header.raw, SignatureHeader.isField_iff.1 hfield, type, next.rest⟩, ?_, hsignature⟩
        rw [FieldForm.bytes, ← hrest]
        exact hblob.symm
      · cases h
  · rintro ⟨form, rfl, rfl⟩
    have hheader : (Cursor.start form.bytes).header =
        .done ⟨form.header⟩ ⟨1, form.type.bytes ++ form.trailing⟩ := rfl
    have hfield : SignatureHeader.isField ⟨form.header⟩ = true :=
      SignatureHeader.isField_iff.2 form.isField
    have hpasses : Cursor.Passes ⟨1, form.type.bytes ++ form.trailing⟩ form.type.bytes
        ⟨1 + form.type.bytes.length, form.trailing⟩ := ⟨rfl, rfl⟩
    rw [hheader]
    dsimp only
    rw [if_pos hfield, Cursor.fieldType_eq_done.2 ⟨form.type, hpasses, rfl⟩]
    rfl

/-- A blob is decoded just when it is spelled in the grammar of field signatures. Then it is spelled so in
one way only, and the answer is what this form describes. -/
theorem decode_eq_ok_iff :
    decode blob = .ok s ↔
      ∃ form : FieldForm, form.bytes = blob ∧ (∀ form' : FieldForm, form'.bytes = blob → form' = form) ∧
        form.Describes s := by
  simp only [FieldForm.describes_iff]
  rw [decode_eq_ok_iff_exists_form]
  constructor
  · rintro ⟨form, hbytes, hsignature⟩
    refine ⟨form, hbytes, fun form' hbytes' => ?_, hsignature⟩
    exact FieldForm.bytes_inj (hbytes'.trans hbytes.symm)
  · rintro ⟨form, hbytes, -, hsignature⟩
    exact ⟨form, hbytes, hsignature⟩

/-- A second sentinel is a tag like any other. -/
example : (decode [0x06, 0x41, 0x41]).toOption = some ⟨.sentinel, none⟩ := by decide +kernel

/-- The type of a modifier may have the reserved tag, and a second generic mark is a tag like any other. -/
example : (decode [0x06, 0x20, 0x03, 0x15, 0x15, 0x11]).toOption = some ⟨.genericInstance, none⟩ := by
  decide +kernel

end FieldSignature

end StaticStorage
