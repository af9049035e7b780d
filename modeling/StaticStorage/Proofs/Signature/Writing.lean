import StaticStorage.Layout.Error
import StaticStorage.Proofs.Signature.Reading
import StaticStorage.Signature.Writer

/-!
# Writing by the grammar

Every part of a signature comes down to strokes: bytes as they are, and compressed integers. A writer sets
the strokes of its parts down one behind the other, and finishes with the first value that is too large, if
there is one. What it has written is spelled in the grammar, so that the reader takes from it the type that
was meant, whatever is written behind.

* `SignatureWriter.finish_addAll` — what is finished is what the strokes come to, behind what was there.
* `Compressed.exists_form_of_le` — an integer is written in the shortest of the forms that are read.
* `PrefixParts.exists_form` — a written prefix is read as the prefix of the tag behind it.
* `TypeParts.decode_of_finish_eq_ok` — a written type is read back.
-/

namespace StaticStorage

/-! ## Strokes -/

/-- What is written at once: bytes as they are, or a compressed integer. -/
inductive Stroke where
  | raw (bytes : List UInt8)
  | compressed (value : UInt32)

namespace Stroke

/-- The bytes that a stroke leaves, or its fault. -/
def encode : Stroke → Except BlobError (List UInt8)
  | raw bytes => .ok bytes
  | compressed value => Compressed.encode value

/-- The bytes that strokes leave one behind the other, or the first fault. -/
def encodeAll : List Stroke → Except BlobError (List UInt8)
  | [] => .ok []
  | stroke :: more => do
    let front ← stroke.encode
    let back ← encodeAll more
    return front ++ back

variable {stroke : Stroke} {more strokes strokes' : List Stroke} {blob : List UInt8}

theorem encodeAll_cons_eq_ok :
    encodeAll (stroke :: more) = .ok blob ↔
      ∃ front back, stroke.encode = .ok front ∧ encodeAll more = .ok back ∧ front ++ back = blob := by
  rw [encodeAll, bind_eq_ok]
  simp only [bind_eq_ok, pure, Except.pure, Except.ok.injEq, exists_and_left]

theorem encodeAll_append_eq_ok :
    encodeAll (strokes ++ strokes') = .ok blob ↔
      ∃ front back, encodeAll strokes = .ok front ∧ encodeAll strokes' = .ok back ∧
        front ++ back = blob := by
  induction strokes generalizing blob with
  | nil => simp [encodeAll]
  | cons stroke strokes ih =>
    simp only [List.cons_append, encodeAll_cons_eq_ok, ih]
    constructor
    · rintro ⟨first, _, hfirst, ⟨front, back, hfront, hback, rfl⟩, rfl⟩
      exact ⟨first ++ front, back, ⟨first, front, hfirst, hfront, rfl⟩, hback, List.append_assoc ..⟩
    · rintro ⟨_, back, ⟨first, front, hfirst, hfront, rfl⟩, hback, rfl⟩
      exact ⟨first, front ++ back, hfirst, ⟨front, back, hfront, hback, rfl⟩, (List.append_assoc ..).symm⟩

end Stroke

/-- The strokes of one part. -/
def SignaturePart.strokes : SignaturePart → List Stroke
  | element e => [.raw [e.raw]]
  | sentinel => [.raw [Element.sentinel.raw]]
  | modifier required type =>
    [.raw [(if required then Element.requiredModifier else .optionalModifier).raw],
      .compressed type.coded]
  | valueType type => [.raw [Element.valueType.raw], .compressed type.coded]
  | classType type => [.raw [Element.classType.raw], .compressed type.coded]
  | genericInstance isValueType definition arguments =>
    .raw [Element.genericInstance.raw] ::
      .raw [(if isValueType then Element.valueType else .classType).raw] ::
      .compressed definition.coded :: .compressed (Word.clamp arguments.length) ::
      arguments.map fun e => .raw [e.raw]
  | typeHandle type => [.compressed type.coded]
  | compressed value => [.compressed value]
  | raw bytes => [.raw bytes]

namespace SignatureWriter

/-- Write one stroke. -/
def write (w : SignatureWriter) : Stroke → SignatureWriter
  | .raw bytes => w.raw bytes
  | .compressed value => w.compressed value

/-- A part is written stroke by stroke. -/
theorem add_eq_foldl (w : SignatureWriter) (part : SignaturePart) :
    w.add part = part.strokes.foldl write w := by
  cases part with
  | genericInstance isValueType definition arguments =>
    rw [SignaturePart.strokes, List.foldl_cons, List.foldl_cons, List.foldl_cons, List.foldl_cons,
      List.foldl_map]
    cases isValueType <;> rfl
  | _ => rfl

/-- Parts are written stroke by stroke. -/
theorem addAll_eq_foldl (w : SignatureWriter) (parts : List SignaturePart) :
    w.addAll parts = (parts.flatMap SignaturePart.strokes).foldl write w := by
  unfold addAll
  rw [List.foldl_flatMap]
  congr 1
  funext w part
  exact w.add_eq_foldl part

/-- A stroke comes behind what was written before, and a fault once met stays. -/
theorem finish_write (w : SignatureWriter) (stroke : Stroke) :
    (w.write stroke).finish = (do return (← w.finish) ++ (← stroke.encode)) := by
  obtain ⟨bytes, rejected⟩ := w
  cases stroke with
  | raw more => cases rejected <;> rfl
  | compressed value =>
    cases rejected with
    | some fault => rfl
    | none =>
      have hencode : Stroke.encode (.compressed value) = Compressed.encode value := rfl
      rw [hencode, write, compressed]
      dsimp only
      unfold Compressed.append
      cases Compressed.encode value <;> rfl

/-- What is finished is what the strokes come to, behind what was there. -/
theorem finish_addAll (w : SignatureWriter) (parts : List SignaturePart) :
    (w.addAll parts).finish =
      (do return (← w.finish) ++ (← Stroke.encodeAll (parts.flatMap SignaturePart.strokes))) := by
  rw [addAll_eq_foldl]
  induction parts.flatMap SignaturePart.strokes generalizing w with
  | nil =>
    rw [List.foldl_nil]
    cases w.finish <;> simp [Stroke.encodeAll, bind, Except.bind, pure, Except.pure]
  | cons stroke more ih =>
    rw [List.foldl_cons, ih, finish_write, Stroke.encodeAll]
    cases w.finish <;> cases stroke.encode <;> cases Stroke.encodeAll more <;>
      simp [bind, Except.bind, pure, Except.pure]

end SignatureWriter

/-! ## Integers -/

namespace Compressed

theorem toNat_lowByte (n : ℕ) : (lowByte n).toNat = n % 0x100 := UInt8.toNat_ofNat'

/-- The number of bytes in the shortest form of a number. -/
def width (n : ℕ) : ℕ := if n < 0x80 then 1 else if n < 0x4000 then 2 else 4

/-- What is written of a value is one of the forms that are read, and the shortest. -/
theorem exists_form_of_le {value : UInt32} (h : value ≤ largest) :
    ∃ form : IntegerForm, encode value = .ok form.bytes ∧ form.value = value.toNat ∧
      form.bytes.length = width value.toNat := by
  have hbound : value.toNat ≤ 0x1FFFFFFF := h
  unfold encode width
  dsimp only
  split
  · next hone =>
    have hlead : (lowByte value.toNat).toNat = value.toNat := by
      rw [toNat_lowByte]
      omega
    exact ⟨.one (lowByte value.toNat) (by omega), rfl, hlead, rfl⟩
  · split
    · next hone htwo =>
      have hlead : (lowByte (0x80 + value.toNat / 0x100)).toNat = 0x80 + value.toNat / 0x100 := by
        rw [toNat_lowByte]
        omega
      refine ⟨.two _ (lowByte value.toNat) (by omega), rfl, ?_, rfl⟩
      rw [IntegerForm.value, hlead, toNat_lowByte]
      omega
    · next hone htwo =>
      have hlead : (lowByte (0xC0 + value.toNat / 0x1000000)).toNat =
          0xC0 + value.toNat / 0x1000000 := by
        rw [toNat_lowByte]
        omega
      refine ⟨.four _ (lowByte (value.toNat / 0x10000)) (lowByte (value.toNat / 0x100))
        (lowByte value.toNat) (by omega), rfl, ?_, rfl⟩
      rw [IntegerForm.value, hlead, toNat_lowByte, toNat_lowByte, toNat_lowByte]
      omega

theorem encode_of_lt {value : UInt32} (h : largest < value) :
    encode value = .error (.tooLarge value) := by
  have hbound : 0x1FFFFFFF < value.toNat := h
  unfold encode
  dsimp only
  rw [if_neg (by omega), if_neg (by omega), if_neg (UInt32.not_le.2 h)]

/-- A written integer is one of the forms that are read. -/
theorem exists_form_of_encode {value : UInt32} {bytes : List UInt8} (h : encode value = .ok bytes) :
    ∃ form : IntegerForm, form.bytes = bytes ∧ form.value = value.toNat := by
  by_cases hle : value ≤ largest
  · obtain ⟨form, hform, hvalue, -⟩ := exists_form_of_le hle
    exact ⟨form, Except.ok.inj (hform.symm.trans h), hvalue⟩
  · rw [encode_of_lt (UInt32.not_le.1 hle)] at h
    cases h

end Compressed

/-- The code of a handle is written as an integer that is read as the handle, if the row has room. -/
theorem TypeHandle.exists_form_of_encode {handle : TypeHandle} {bytes : List UInt8}
    (hrow : handle.row ≤ TypeHandle.largestRow) (h : Compressed.encode handle.coded = .ok bytes) :
    ∃ form : IntegerForm, form.bytes = bytes ∧ form.handle? = some handle := by
  obtain ⟨form, hbytes, hvalue⟩ := Compressed.exists_form_of_encode h
  have hbound : handle.row.toNat ≤ 0x7FFFFFF := hrow
  refine ⟨form, hbytes, ?_⟩
  rw [IntegerForm.handle?, hvalue, UInt32.ofNat_toNat]
  exact handle.ofCoded?_coded (by omega)

/-! ## Prefixes -/

/-- What is written in front of a tag: a sentinel, perhaps, and then any number of modifiers. -/
structure PrefixParts where
  sentinel : Bool
  modifiers : List (Bool × TypeHandle)

namespace PrefixParts

def parts (front : PrefixParts) : List SignaturePart :=
  (if front.sentinel then [.sentinel] else []) ++
    front.modifiers.map fun m => .modifier m.1 m.2

/-- Written modifiers are modifiers of the grammar. -/
theorem exists_modifiers {modifiers : List (Bool × TypeHandle)} {bytes : List UInt8}
    (h : Stroke.encodeAll ((modifiers.map fun m => SignaturePart.modifier m.1 m.2).flatMap
      SignaturePart.strokes) = .ok bytes) :
    ∃ forms : List ModifierForm, forms.flatMap ModifierForm.bytes = bytes := by
  induction modifiers generalizing bytes with
  | nil => exact ⟨[], Except.ok.inj h⟩
  | cons m modifiers ih =>
    obtain ⟨required, type⟩ := m
    rw [List.map_cons, List.flatMap_cons, Stroke.encodeAll_append_eq_ok] at h
    obtain ⟨first, back, hfirst, hback, rfl⟩ := h
    obtain ⟨forms, rfl⟩ := ih hback
    obtain ⟨_, behind, ⟨⟩, hbehind, rfl⟩ := Stroke.encodeAll_cons_eq_ok.1 hfirst
    obtain ⟨integer, _, hinteger, ⟨⟩, rfl⟩ := Stroke.encodeAll_cons_eq_ok.1 hbehind
    obtain ⟨form, rfl, -⟩ := Compressed.exists_form_of_encode hinteger
    have hmodifier : (if required then Element.requiredModifier else .optionalModifier).isModifier := by
      cases required <;> rfl
    exact ⟨⟨_, hmodifier, form⟩ :: forms, by simp [ModifierForm.bytes]⟩

/-- A written prefix is read as the prefix of the tag behind it. -/
theorem exists_form (front : PrefixParts) (tag : Element) {bytes : List UInt8}
    (hmodifier : tag.isModifier = false) (hsentinel : tag ≠ .sentinel)
    (h : Stroke.encodeAll (front.parts.flatMap SignaturePart.strokes) = .ok bytes) :
    ∃ form : TagForm, form.tag = tag ∧ form.bytes = bytes ++ [tag.raw] := by
  obtain ⟨sentinel, modifiers⟩ := front
  rw [parts, List.flatMap_append, Stroke.encodeAll_append_eq_ok] at h
  obtain ⟨mark, behind, hmark, hbehind, rfl⟩ := h
  obtain ⟨forms, rfl⟩ := exists_modifiers hbehind
  refine ⟨⟨sentinel, forms, tag, hmodifier, fun _ _ => hsentinel⟩, rfl, ?_⟩
  have hsame : mark = if sentinel then [Element.sentinel.raw] else [] := by
    cases sentinel <;> exact (Except.ok.inj hmark).symm
  rw [TagForm.bytes, TagForm.modifiedBytes, hsame, List.append_assoc]

end PrefixParts

/-! ## Types -/

/-- The part that decides what is read of a type. -/
inductive LeadPart where
  /-- A tag that stands for itself: it belongs to no prefix, is no generic mark and needs no handle. -/
  | element (e : Element)
    (h : e ∉ [.sentinel, .requiredModifier, .optionalModifier, .genericInstance, .valueType])
  /-- A value type, whose handle has room in a compressed integer. -/
  | valueType (type : TypeHandle) (h : type.row ≤ TypeHandle.largestRow)
  | classType (type : TypeHandle)

namespace LeadPart

def part : LeadPart → SignaturePart
  | element e _ => .element e
  | valueType type _ => .valueType type
  | classType type => .classType type

/-- What storage has to know of the type. -/
def signature : LeadPart → FieldSignature
  | element e _ => ⟨e, none⟩
  | valueType type _ => ⟨.valueType, some type⟩
  | classType _ => ⟨.classType, none⟩

/-- A tag that decides is not taken for part of a prefix, nor for the generic mark. -/
theorem element_signature (lead : LeadPart) :
    lead.signature.element.isModifier = false ∧ lead.signature.element ≠ .sentinel ∧
      lead.signature.element ≠ .genericInstance := by
  cases lead with
  | element e h =>
    simp only [List.mem_cons, List.not_mem_nil, or_false, not_or] at h
    obtain ⟨hsentinel, hrequired, hoptional, hgeneric, -⟩ := h
    refine ⟨?_, hsentinel, hgeneric⟩
    rw [signature, Element.isModifier, Bool.or_eq_false_iff, beq_eq_false_iff_ne,
      beq_eq_false_iff_ne]
    exact ⟨hrequired, hoptional⟩
  | valueType type h =>
    show Element.valueType.isModifier = false ∧ Element.valueType ≠ .sentinel ∧
      Element.valueType ≠ .genericInstance
    decide
  | classType type =>
    show Element.classType.isModifier = false ∧ Element.classType ≠ .sentinel ∧
      Element.classType ≠ .genericInstance
    decide

/-- Behind its tag, the part is read as the type that was meant. -/
theorem exists_form (lead : LeadPart) (storage : StorageForm)
    (htag : storage.tag = lead.signature.element) {more : List Stroke} {bytes : List UInt8}
    (h : Stroke.encodeAll (lead.part.strokes ++ more) = .ok bytes) :
    ∃ (form : TypeForm) (trailing : List UInt8), form.storage = storage ∧
      form.signature = lead.signature ∧
      lead.signature.element.raw :: (form.handle.elim [] IntegerForm.bytes ++ trailing) = bytes := by
  cases lead with
  | element e hplain =>
    obtain ⟨_, back, ⟨⟩, -, rfl⟩ := Stroke.encodeAll_cons_eq_ok.1 h
    have hvalue : storage.tag ≠ .valueType := by
      rw [htag]
      rintro rfl
      exact hplain (by simp)
    exact ⟨⟨storage, none, iff_of_false Bool.false_ne_true hvalue, nofun⟩, back, rfl,
      congrArg (FieldSignature.mk · none) htag, rfl⟩
  | valueType type hrow =>
    obtain ⟨_, behind, ⟨⟩, hbehind, rfl⟩ := Stroke.encodeAll_cons_eq_ok.1 h
    obtain ⟨integer, back, hinteger, -, rfl⟩ := Stroke.encodeAll_cons_eq_ok.1 hbehind
    obtain ⟨form, rfl, hhandle⟩ := TypeHandle.exists_form_of_encode hrow hinteger
    have hreserved : form.value % 4 ≠ 3 := by
      rw [← IntegerForm.isSome_handle?_iff, hhandle]
      rfl
    refine ⟨⟨storage, some form, iff_of_true rfl htag, ?_⟩, back, rfl, ?_, rfl⟩
    · rintro _ ⟨⟩
      exact hreserved
    · exact congr (congrArg FieldSignature.mk htag) hhandle
  | classType type =>
    obtain ⟨_, back, ⟨⟩, -, rfl⟩ := Stroke.encodeAll_cons_eq_ok.1 h
    have hvalue : storage.tag ≠ .valueType := by
      rw [htag]
      show Element.classType ≠ .valueType
      decide
    exact ⟨⟨storage, none, iff_of_false Bool.false_ne_true hvalue, nofun⟩, back, rfl,
      congrArg (FieldSignature.mk · none) htag, rfl⟩

end LeadPart

/-- The parts that write the type of a field. -/
inductive TypeParts where
  | plain (front : PrefixParts) (lead : LeadPart)
  /-- Behind a generic mark comes a second prefix. -/
  | marked (front behind : PrefixParts) (lead : LeadPart)
  /-- An instance of a generic type, written at once. -/
  | generic (front : PrefixParts) (isValueType : Bool) (definition : TypeHandle)
    (h : isValueType = true → definition.row ≤ TypeHandle.largestRow) (arguments : List Element)

namespace TypeParts

def parts : TypeParts → List SignaturePart
  | plain front lead => front.parts ++ [lead.part]
  | marked front behind lead =>
    front.parts ++ .element .genericInstance :: (behind.parts ++ [lead.part])
  | generic front isValueType definition _ arguments =>
    front.parts ++ [.genericInstance isValueType definition arguments]

/-- What storage has to know of the type. -/
def signature : TypeParts → FieldSignature
  | plain _ lead => lead.signature
  | marked _ _ lead => lead.signature
  | generic _ isValueType definition _ _ =>
    if isValueType then ⟨.valueType, some definition⟩ else ⟨.classType, none⟩

/-- A type behind one prefix is read as the type that was meant. -/
theorem exists_form_plain (front : PrefixParts) (lead : LeadPart) {more : List Stroke}
    {bytes : List UInt8}
    (h : Stroke.encodeAll (front.parts.flatMap SignaturePart.strokes ++
      (lead.part.strokes ++ more)) = .ok bytes) :
    ∃ (form : TypeForm) (trailing : List UInt8), form.bytes ++ trailing = bytes ∧
      form.signature = lead.signature := by
  obtain ⟨hmodifier, hsentinel, hgeneric⟩ := lead.element_signature
  obtain ⟨start, back, hstart, hback, rfl⟩ := Stroke.encodeAll_append_eq_ok.1 h
  obtain ⟨first, htag, hfirst⟩ := front.exists_form _ hmodifier hsentinel hstart
  have hmark : (none : Option TagForm).isSome = true ↔ first.tag = .genericInstance :=
    iff_of_false Bool.false_ne_true (htag ▸ hgeneric)
  obtain ⟨form, trailing, hstorage, hsignature, rfl⟩ := lead.exists_form ⟨first, none, hmark⟩ htag hback
  refine ⟨form, trailing, ?_, hsignature⟩
  rw [TypeForm.bytes, hstorage]
  simp [StorageForm.bytes, hfirst]

/-- A type behind a generic mark is read as the type that was meant. -/
theorem exists_form_marked (front behind : PrefixParts) (lead : LeadPart) {more : List Stroke}
    {bytes : List UInt8}
    (h : Stroke.encodeAll (front.parts.flatMap SignaturePart.strokes ++
      .raw [Element.genericInstance.raw] :: (behind.parts.flatMap SignaturePart.strokes ++
        (lead.part.strokes ++ more))) = .ok bytes) :
    ∃ (form : TypeForm) (trailing : List UInt8), form.bytes ++ trailing = bytes ∧
      form.signature = lead.signature := by
  obtain ⟨hmodifier, hsentinel, -⟩ := lead.element_signature
  obtain ⟨start, rest, hstart, hrest, rfl⟩ := Stroke.encodeAll_append_eq_ok.1 h
  obtain ⟨_, tail, ⟨⟩, htail, rfl⟩ := Stroke.encodeAll_cons_eq_ok.1 hrest
  obtain ⟨inner, back, hinner, hback, rfl⟩ := Stroke.encodeAll_append_eq_ok.1 htail
  obtain ⟨first, hmark, hfirst⟩ := front.exists_form .genericInstance (by decide) (by decide) hstart
  obtain ⟨second, htag, hsecond⟩ := behind.exists_form _ hmodifier hsentinel hinner
  obtain ⟨form, trailing, hstorage, hsignature, rfl⟩ :=
    lead.exists_form ⟨first, some second, iff_of_true rfl hmark⟩ htag hback
  refine ⟨form, trailing, ?_, hsignature⟩
  rw [TypeForm.bytes, hstorage]
  simp [StorageForm.bytes, hfirst, hsecond]

/-- A written type is read as the type that was meant, whatever is written behind. -/
theorem exists_form (type : TypeParts) {more : List SignaturePart} {bytes : List UInt8}
    (h : Stroke.encodeAll ((type.parts ++ more).flatMap SignaturePart.strokes) = .ok bytes) :
    ∃ (form : TypeForm) (trailing : List UInt8), form.bytes ++ trailing = bytes ∧
      form.signature = type.signature := by
  cases type with
  | plain front lead =>
    rw [parts, List.append_assoc, List.flatMap_append] at h
    exact exists_form_plain front lead h
  | marked front behind lead =>
    rw [parts, List.append_assoc, List.cons_append, List.append_assoc, List.flatMap_append,
      List.flatMap_cons, List.flatMap_append] at h
    exact exists_form_marked front behind lead h
  | generic front isValueType definition hrow arguments =>
    rw [parts, List.append_assoc, List.flatMap_append] at h
    -- an instance is a generic mark with a head behind it, and the arguments are never read
    cases isValueType with
    | true => exact exists_form_marked front ⟨false, []⟩ (.valueType definition (hrow rfl)) h
    | false => exact exists_form_marked front ⟨false, []⟩ (.classType definition) h

/-- What is written behind the header of a field signature is decoded as the type that was meant, whatever
parts are written behind it. -/
theorem decode_of_finish_eq_ok (header : SignatureHeader) (hheader : header.raw &&& 0x0F = 0x06)
    (type : TypeParts) (more : List SignaturePart) {blob : List UInt8}
    (h : ((SignatureWriter.start header).addAll (type.parts ++ more)).finish = .ok blob) :
    FieldSignature.decode blob = .ok type.signature := by
  rw [SignatureWriter.finish_addAll] at h
  obtain ⟨_, ⟨⟩, h⟩ := bind_eq_ok.1 h
  obtain ⟨bytes, hbytes, h⟩ := bind_eq_ok.1 h
  obtain rfl := Except.ok.inj h
  obtain ⟨form, trailing, rfl, hsignature⟩ := type.exists_form hbytes
  exact FieldSignature.decode_eq_ok_iff_exists_form.2
    ⟨⟨header.raw, hheader, form, trailing⟩, rfl, hsignature⟩

/-- Two prefixes with integers of every length, the largest row that a handle has room for, and bytes that
are no type behind it. -/
def nestedParts : TypeParts :=
  .marked ⟨true, [(true, .typeRef 1), (false, .typeDef ⟨0x4000⟩)]⟩ ⟨true, [(false, .typeSpec 2000)]⟩
    (.valueType (.typeDef ⟨0x7FFFFFF⟩) (by decide))

/-- The bytes of this type behind a header with high bits, and of what is written behind it. -/
def nestedBlob : List UInt8 :=
  [0xF6, 0x41, 0x1F, 0x05, 0x20, 0xC0, 0x01, 0x00, 0x00, 0x15, 0x41, 0x20, 0x9F, 0x42, 0x11, 0xDF, 0xFF,
    0xFF, 0xFC, 0x03, 0x13, 0xFF, 0x00]

theorem finish_nestedParts :
    ((SignatureWriter.start ⟨0xF6⟩).addAll
      (nestedParts.parts ++ [.compressed 3, .element ⟨0x13⟩, .raw [0xFF, 0x00]])).finish =
        .ok nestedBlob := rfl

theorem decode_of_finish_nestedParts :
    (0xF6 : UInt8) &&& 0x0F = 0x06 ∧
      ((SignatureWriter.start ⟨0xF6⟩).addAll
        (nestedParts.parts ++ [.compressed 3, .element ⟨0x13⟩, .raw [0xFF, 0x00]])).finish =
          .ok nestedBlob ∧
      FieldSignature.decode nestedBlob = .ok ⟨.valueType, some (.typeDef ⟨0x7FFFFFF⟩)⟩ :=
  ⟨by decide, finish_nestedParts,
    decode_of_finish_eq_ok ⟨0xF6⟩ (by decide) nestedParts _ finish_nestedParts⟩

end TypeParts

end StaticStorage
