import StaticStorage.Layout.Basic
import StaticStorage.Layout.Slot

/-!
# Packing

The statics of a module are its fields with static storage, those of generic types aside. They are
visited type by type and field by field in declaration order, and each gets the next aligned place behind
what its block already holds. The first field that cannot be placed ends the walk with its error.

* `Module.placeStatics_nil`, `Module.placeStatics_cons` — the walk over one field more.
-/

namespace StaticStorage

/-- The room that a field asks for, and the block it asks it of. -/
structure Demand where
  block : BlockKind
  slot : Slot
deriving DecidableEq

/-- The bytes in use in each block. -/
abbrev BlockSizes := BlockTable UInt32

/-- The next place for a slot in a block, and the sizes with that place taken. -/
def BlockSizes.place? (sizes : BlockSizes) (demand : Demand) : Option (UInt32 × BlockSizes) := do
  let offset ← Word.alignUp? (sizes.get demand.block) demand.slot.alignment
  let size ← Word.add? offset demand.slot.size
  return (offset, sizes.set demand.block size)

namespace Module

/-- The fields of a type that have static storage, in declaration order. -/
def staticsOf (m : Module) (t : TypeId) : List FieldId :=
  (m.fieldsOf t).filter fun f => (m.flagsOf f).hasStaticStorage

/-- The statics that a module's layout places, each with its type, in the order in which they are
visited. A generic type has its statics laid out with each of its instances, and never here. -/
def statics (m : Module) : List (TypeId × FieldId) :=
  m.typeIds.flatMap fun t => if m.isGeneric t then [] else (m.staticsOf t).map fun f => (t, f)

/-- The room that a static field asks for. -/
def demand (m : Module) (target : Target) (f : FieldId) : Except LayoutError Demand := do
  let signature ← (FieldSignature.decode (m.signatureOf f)).mapError fun fault => .field f (.malformed fault)
  let slot ← m.classify target f signature
  return { block := .select slot.isGc (m.isThreadStatic f), slot }

/-- Find a place for one static field. -/
def place (m : Module) (target : Target) (f : FieldId) :
    StateT BlockSizes (Except LayoutError) FieldOffset := fun sizes => do
  let demand ← m.demand target f
  let (offset, sizes) ← LayoutError.orOverflow (sizes.place? demand)
  return ({ field := m.qualify f, block := demand.block, offset }, sizes)

/-- Find places for static fields, one after the other. -/
def placeStatics (m : Module) (target : Target) (fields : List (TypeId × FieldId)) :
    StateT BlockSizes (Except LayoutError) (List (TypeId × FieldOffset)) :=
  fields.mapM fun (t, f) => do return (t, ← m.place target f)

/-- The layout of a module. -/
def layout (m : Module) (options : LayoutOptions) : Except LayoutError Layout := do
  let target ← Target.check m.pointerSize options
  let start ← target.reserved m.typeCount
  let (placed, sizes) ← m.placeStatics target m.statics start
  return {
    home := m.id
    blocks := sizes.map fun size => { size, alignment := target.largestPrimitive }
    types := WordMap.collect (placed.map fun (t, o) => (t.row, o)) }

/-- Without fields the sizes stay as they are. -/
theorem placeStatics_nil (m : Module) (target : Target) (sizes : BlockSizes) :
    m.placeStatics target [] sizes = .ok ([], sizes) := rfl

/-- The first field is placed before all others. -/
theorem placeStatics_cons (m : Module) (target : Target) (t : TypeId) (f : FieldId)
    (fields : List (TypeId × FieldId)) (sizes : BlockSizes) :
    m.placeStatics target ((t, f) :: fields) sizes =
      (m.place target f sizes).bind fun (o, sizes) =>
        (m.placeStatics target fields sizes).bind fun (placed, sizes) =>
          .ok ((t, o) :: placed, sizes) := by
  unfold placeStatics
  rw [List.mapM_cons]
  change ((m.place target f sizes).bind fun r => Except.ok ((t, r.1), r.2)).bind _ = _
  cases m.place target f sizes with
  | error e => rfl
  | ok r => rfl

end Module

end StaticStorage
