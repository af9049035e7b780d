import StaticStorage.Layout.Block
import StaticStorage.Layout.Error
import StaticStorage.Word

/-!
# Targets

A target is the pair of sizes that a layout depends on: that of a pointer and that of the largest
primitive. Only supported pairs form a target. The runtime keeps some bytes at the start of the two raw
blocks for itself: a header, and behind it one byte for every type of the module.
-/

namespace StaticStorage

/-- What a caller may choose about layouts. -/
structure LayoutOptions where
  /-- The size of the largest primitive, in bytes: the alignment of every block, and the size of a slot
  whose contents are not known. -/
  largestPrimitive : UInt32 := 8
deriving DecidableEq

/-- The pairs of sizes that layouts are made for: pointers of four or eight bytes, and a largest primitive
whose size is a power of two and at least that of a pointer. -/
def Supported (pointerSize largestPrimitive : UInt32) : Prop :=
  (pointerSize = 4 ∨ pointerSize = 8) ∧ largestPrimitive.toNat.isPowerOfTwo
    ∧ pointerSize ≤ largestPrimitive

instance (pointerSize largestPrimitive : UInt32) : Decidable (Supported pointerSize largestPrimitive) :=
  inferInstanceAs (Decidable (_ ∧ _ ∧ _))

/-- The sizes that a layout depends on. -/
structure Target where
  pointerSize : UInt32
  largestPrimitive : UInt32
  supported : Supported pointerSize largestPrimitive

namespace Target

/-- The pointers that the runtime reserves at the start of the raw block of the process. -/
def headerPointers : UInt32 := 6

/-- The pointers that the runtime reserves at the start of the raw block of a thread. -/
def threadHeaderPointers : UInt32 := 3

/-- The target for a pointer size under the given options, if it is supported. -/
def check (pointerSize : UInt32) (options : LayoutOptions) : Except LayoutError Target :=
  if supported : Supported pointerSize options.largestPrimitive then
    .ok ⟨pointerSize, options.largestPrimitive, supported⟩
  else .error (.unsupportedTarget pointerSize options.largestPrimitive)

/-- The bytes reserved in the raw block of the process, for a module with so many types. -/
def nonGcStart? (t : Target) (typeCount : UInt32) : Option UInt32 :=
  Word.add? (headerPointers * t.pointerSize) typeCount

/-- The bytes reserved in the raw block of a thread, for a module with so many types. -/
def threadNonGcStart? (t : Target) (typeCount : UInt32) : Option UInt32 :=
  Word.add? (threadHeaderPointers * t.pointerSize) typeCount

/-- The bytes reserved in every block. Nothing is reserved where references live. -/
def reserved (t : Target) (typeCount : UInt32) : Except LayoutError (BlockTable UInt32) := do
  let nonGc ← LayoutError.orOverflow (t.nonGcStart? typeCount)
  let threadNonGc ← LayoutError.orOverflow (t.threadNonGcStart? typeCount)
  return { gc := 0, nonGc, threadGc := 0, threadNonGc }

end Target

end StaticStorage
