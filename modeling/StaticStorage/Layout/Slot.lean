import StaticStorage.Layout.Target
import StaticStorage.Module.Marker

/-!
# Slots

A static field takes a slot, whose size and alignment follow from the leading tag of its signature.
Scalars lie there as raw bytes, and references as pointers that the collector follows. Three rules are
policy rather than arithmetic.

* A value type of the same module is stored behind a pointer to its box, unless it is confined to the stack.
* Whatever else comes with a handle gets a raw slot of the largest primitive's size, since nothing is
  known of it here: a value type of another module, or a tag without a storage class.
* A managed pointer never gets a slot.
-/

namespace StaticStorage

/-- The rule by which a field got its slot. -/
inductive SlotKind where
  /-- The raw bytes of a scalar. -/
  | primitive
  /-- A reference to an object. -/
  | gcReference
  /-- A reference to the box of a value type. -/
  | boxedValueType
  /-- Room for a value of unknown size. -/
  | pessimistic
deriving DecidableEq

/-- The name of a rule. -/
def SlotKind.name : SlotKind → String
  | primitive => "Primitive"
  | gcReference => "GcReference"
  | boxedValueType => "BoxedValueType"
  | pessimistic => "PessimisticFallback"

/-- What a static field needs of its block. -/
structure Slot where
  kind : SlotKind
  size : UInt32
  alignment : UInt32
deriving DecidableEq

namespace Slot

/-- A slot that is aligned to its own size, as all slots are. -/
def square (kind : SlotKind) (size : UInt32) : Slot := ⟨kind, size, size⟩

/-- Does the slot hold a reference? -/
def isGc (slot : Slot) : Bool :=
  match slot.kind with
  | .gcReference | .boxedValueType => true
  | .primitive | .pessimistic => false

end Slot

namespace Module

/-- The slot of a value of unknown size. Only a handle justifies one. -/
def pessimisticSlot (target : Target) (s : FieldSignature) : Except FieldDefect Slot :=
  if s.valueType.isNone then .error (.noStorageClass s.element)
  else .ok (.square .pessimistic target.largestPrimitive)

/-- The slot of a boxed value type of this module. -/
def boxedSlot (m : Module) (target : Target) (type : TypeId) : Except FieldDefect Slot :=
  if m.isByRefLike (.typeDef type) then .error (.byRefLike type)
  else .ok (.square .boxedValueType target.pointerSize)

/-- The slot of a static field with the given signature. -/
def slotFor (m : Module) (target : Target) (s : FieldSignature) : Except FieldDefect Slot :=
  match s.category with
  | .oneByte => .ok (.square .primitive 1)
  | .twoByte => .ok (.square .primitive 2)
  | .fourByte => .ok (.square .primitive 4)
  | .pointerSized => .ok (.square .primitive target.pointerSize)
  | .eightByte => .ok (.square .primitive 8)
  | .reference => .ok (.square .gcReference target.pointerSize)
  | .byRef => .error .byRef
  | .valueType =>
    match s.valueType.bind m.resolveType? with
    | some type => m.boxedSlot target type
    | none => pessimisticSlot target s
  | .unrecognized => pessimisticSlot target s

/-- Classify a static field by its signature. A defect is reported with the field that has it. -/
def classify (m : Module) (target : Target) (f : FieldId) (s : FieldSignature) : Except LayoutError Slot :=
  (m.slotFor target s).mapError (.field f)

end Module

end StaticStorage
