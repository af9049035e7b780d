import StaticStorage.Blob.Request

/-!
# Field signatures

A field signature is a header and a type. Of the type only as much is read as storage asks for: the
leading element tag and, when that is a value type, the handle behind it. In front of a tag may stand one
sentinel and any number of modifiers, each with the integer that names its type; they are passed over. A
generic mark is passed over too, and the tag after it, with a prefix of its own, takes its place. What
follows is never looked at.
-/

namespace StaticStorage

/-- The part of a field's type that decides its storage. -/
structure FieldSignature where
  /-- The leading tag, behind modifiers and a generic mark. -/
  element : Element
  /-- The handle that follows a value type's tag. -/
  valueType : Option TypeHandle
deriving DecidableEq

/-- Why a blob is not a field signature. -/
inductive SignatureError where
  /-- The header announces another kind of signature. -/
  | notAField (header : SignatureHeader)
  /-- The bytes behind the header do not form a type. -/
  | blob (fault : BlobError)
deriving DecidableEq

/-- The fault in words. -/
def SignatureError.message : SignatureError → String
  | notAField header => "expected a field signature, found header 0x" ++ Hex.byte header.raw
  | blob fault => fault.message

namespace Cursor

/-- Pass over modifiers, starting with the tag just read, up to a tag that is none. -/
def skipModifiers (c : Cursor) (tag : Element) : Read Element :=
  if tag.isModifier then
    match _modified : c.compressed with
    | .failed fault last => .failed fault last
    | .done _ c₁ =>
      match _following : c₁.element with
      | .failed fault last => .failed fault last
      | .done tag c₂ => c₂.skipModifiers tag
  else .done tag c
termination_by c.rest.length
decreasing_by
  exact Nat.lt_trans (length_lt_of_element _following) (length_lt_of_compressed _modified)

/-- Read the tag behind an optional sentinel and any modifiers. -/
def leadingElement (c : Cursor) : Read Element :=
  c.element.bind fun tag c₁ =>
    if tag = .sentinel then c₁.element.bind fun tag c₂ => c₂.skipModifiers tag
    else c₁.skipModifiers tag

/-- Read the tag that decides storage, passing over one generic mark. -/
def storageElement (c : Cursor) : Read Element :=
  c.leadingElement.bind fun tag c₁ =>
    if tag = .genericInstance then c₁.leadingElement else .done tag c₁

/-- Read a field's type as far as storage asks for it. -/
def fieldType (c : Cursor) : Read FieldSignature :=
  c.storageElement.bind fun tag c₁ =>
    if tag = .valueType then c₁.typeHandle.map fun handle => ⟨tag, some handle⟩
    else .done ⟨tag, none⟩ c₁

end Cursor

/-- Decode a field signature. -/
def FieldSignature.decode (blob : List UInt8) : Except SignatureError FieldSignature :=
  match (Cursor.start blob).header with
  | .failed fault _ => .error (.blob fault)
  | .done header c =>
    if header.isField then c.fieldType.outcome.mapError .blob else .error (.notAField header)

/-- What the leading tag means for storage. -/
def FieldSignature.category (s : FieldSignature) : ElementCategory := s.element.category

end StaticStorage
