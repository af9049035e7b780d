import StaticStorage.BucketOrder
import StaticStorage.Layout.Block
import StaticStorage.Module.Basic
import StaticStorage.WordMap

/-!
# Layouts

A layout says how large each of a module's blocks is and where every static field lies. The fields are
listed by type. A type is listed when it has an entry, be the entry an empty list.

No order of the types belongs to a layout: two layouts are the same when they list the same types with the
same places. Whoever goes through the types does so in some order, a `Layout.Listing`. It decides which place a
field is answered with that several types list. Unless another one is named, it is the order of a table into
which the types were entered from the first row on.

`TypeLayout` is a layout seen from one of its types.
-/

namespace StaticStorage

/-- The place of one static field. -/
structure FieldOffset where
  field : QualifiedField
  block : BlockKind
  /-- The distance from the start of the block, in bytes. -/
  offset : UInt32
deriving DecidableEq

/-- The static storage of a module. -/
structure Layout where
  home : ModuleId
  blocks : BlockTable BlockExtent
  /-- The places of each type's fields, by type row. -/
  types : WordMap (List FieldOffset)
deriving DecidableEq

namespace Layout

/-- The extent of a block. -/
def block (l : Layout) (kind : BlockKind) : BlockExtent := l.blocks.get kind

/-- The places of a type's fields; none for a type that is not listed. -/
def offsetsFor (l : Layout) (t : TypeId) : List FieldOffset :=
  match l.types.get? t.row with
  | some offsets => offsets
  | none => []

/-- Is the type listed? -/
def hasStatics (l : Layout) (t : TypeId) : Bool := l.types.contains t.row

/-- The listed types, in ascending order. -/
def typeIds (l : Layout) : List TypeId := l.types.keys.map TypeId.mk

/-- All placed fields with the types that list them. -/
def placements (l : Layout) : List (TypeId × FieldOffset) :=
  l.types.entries.flatMap fun (row, offsets) => offsets.map fun o => (⟨row⟩, o)

/-- The number of placed fields. -/
def fieldCount (l : Layout) : Nat :=
  l.types.entries.foldl (fun count entry => count + entry.2.length) 0

/-- The placed fields, in ascending order of their types and of the fields within a type. -/
def fieldIndex (l : Layout) : List (TypeId × QualifiedField) :=
  l.types.entries.flatMap fun (row, offsets) =>
    ((offsets.map (·.field)).mergeSort QualifiedField.le).map fun f => (⟨row⟩, f)

/-! ## Orders of the types -/

/-- The types of a layout with the places of their fields, in some order. -/
structure Listing (l : Layout) where
  entries : List (UInt32 × List FieldOffset)
  perm : entries.Perm l.types.entries

namespace Listing

variable {l : Layout}

/-- The types by ascending rows. -/
def ascending (l : Layout) : l.Listing := ⟨l.types.entries, .refl _⟩

/-- The order of a table into which the types are entered in a given order. -/
def entered (a : l.Listing) : l.Listing :=
  ⟨(BucketTable.fill a.entries).listed, (BucketTable.perm_listed_fill a.entries).trans a.perm⟩

/-- The place of a field; the first one in this order, should there be several. -/
def offsetOf? (a : l.Listing) (f : QualifiedField) : Option FieldOffset :=
  a.entries.findSome? fun (_, offsets) => offsets.find? (·.field = f)

end Listing

/-- The order of a table into which the types are entered by ascending rows, as they are when a layout is
computed. -/
def tabled (l : Layout) : l.Listing := (Listing.ascending l).entered

/-- The place of a field; the first one in the order of the types, should there be several. -/
def offsetOf? (l : Layout) (f : QualifiedField) (order : l.Listing := l.tabled) : Option FieldOffset :=
  order.offsetOf? f

end Layout

/-- The static storage of a module as one of its types sees it: that type's fields, and the blocks that
their places refer to. -/
structure TypeLayout where
  blocks : BlockTable BlockExtent
  offsets : List FieldOffset
deriving DecidableEq

namespace TypeLayout

/-- Four empty blocks and no fields: what a type gets that has no part in a module's layout. -/
def none : TypeLayout := ⟨.const ⟨0, 0⟩, []⟩

/-- A layout as the type sees it. -/
def ofLayout (l : Layout) (t : TypeId) : TypeLayout := ⟨l.blocks, l.offsetsFor t⟩

end TypeLayout

end StaticStorage
