import StaticStorage.Document
import StaticStorage.Layout.Basic
import StaticStorage.Text.Decimal

/-!
# Stored layouts

A layout can be kept as a document and read back: a record of the module's number, the four blocks in
their order, and the places of each type's fields under the numeral of its row. Reading checks the shape
of the document and the range of its numbers, and nothing else.
-/

namespace StaticStorage

/-! ## Writing -/

/-- An extent as a record. -/
def BlockExtent.toDocument (extent : BlockExtent) : Document :=
  .record [("size", .word extent.size), ("alignment", .word extent.alignment)]

/-- A field as a record. -/
def QualifiedField.toDocument (f : QualifiedField) : Document :=
  .record [("module", .word f.home.raw), ("def", .word f.field.row)]

/-- A place as a record. -/
def FieldOffset.toDocument (o : FieldOffset) : Document :=
  .record [("field", o.field.toDocument), ("block", .text o.block.name), ("offset", .word o.offset)]

/-- A layout as a record. -/
def Layout.toDocument (l : Layout) : Document :=
  .record [
    ("module", .word l.home.raw),
    ("blocks", .list (l.blocks.map BlockExtent.toDocument).toList),
    ("type_offsets", .record (l.types.entries.map fun (row, offsets) =>
      (Decimal.write row.toNat, .list (offsets.map FieldOffset.toDocument))))]

/-! ## Reading -/

/-- The extent that a document describes. -/
def BlockExtent.ofDocument? (d : Document) : Option BlockExtent := do
  let [size, alignment] ← d.members? ["size", "alignment"] | none
  return { size := ← size.word?, alignment := ← alignment.word? }

/-- The field that a document describes. -/
def QualifiedField.ofDocument? (d : Document) : Option QualifiedField := do
  let [home, field] ← d.members? ["module", "def"] | none
  return { home := ⟨← home.word?⟩, field := ⟨← field.word?⟩ }

/-- The place that a document describes. -/
def FieldOffset.ofDocument? (d : Document) : Option FieldOffset := do
  let [field, block, offset] ← d.members? ["field", "block", "offset"] | none
  return {
    field := ← QualifiedField.ofDocument? field
    block := ← block.name?.bind BlockKind.ofName?
    offset := ← offset.word? }

/-- The type row and the places that one member of a record describes. -/
def Layout.typeOfMember? (row : String) (offsets : Document) : Option (UInt32 × List FieldOffset) := do
  let row ← (Decimal.read? row).bind Word.ofNat?
  let offsets ← (← offsets.items?).mapM FieldOffset.ofDocument?
  return (row, offsets)

/-- The layout that a document describes. -/
def Layout.ofDocument? (d : Document) : Option Layout := do
  let [home, blocks, types] ← d.members? ["module", "blocks", "type_offsets"] | none
  let extents ← (← blocks.items?).mapM BlockExtent.ofDocument?
  let types ← (← types.entries?).mapM fun (row, offsets) => Layout.typeOfMember? row offsets
  return {
    home := ⟨← home.word?⟩
    blocks := ← BlockTable.ofList? extents
    types := WordMap.ofList types }

end StaticStorage
