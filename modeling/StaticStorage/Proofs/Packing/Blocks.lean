import Mathlib
import StaticStorage.Module.Declaration
import StaticStorage.Proofs.Packing.Walk

/-!
# The blocks of a layout

A layout is made in one walk, and read block by block. Each of its four blocks is a packing of its own,
of just the fields routed there (`packsBlocks_of_layout`), and from that follows what a runtime relies on
when it stores into the blocks: no two fields share a byte, and every field is aligned, keeps off the
reserved bytes and ends within its block (`fitsBlocks_of_layout`).
-/

namespace StaticStorage

namespace Layout

/-- The places in one block with the types that list them, in the order of the walk. -/
def inBlock (l : Layout) (kind : BlockKind) : List (TypeId × FieldOffset) :=
  l.placements.filter (·.2.block = kind)

/-- One block of a layout is a packing of its own: it holds the fields routed there in the order of the
walk, packed from the reserved bytes on, and it ends where the last of them ends. -/
structure PacksBlock (l : Layout) (m : Module) (target : Target) (kind : BlockKind) : Prop where
  fields : (l.inBlock kind).map (fun p => (p.1, p.2.field)) =
    (m.routedTo target kind m.statics).map fun r => (r.type, m.qualify r.field)
  packed : Packed (m.reservedBytes kind) ((m.routedTo target kind m.statics).map (·.slot))
    ((l.inBlock kind).map (·.2.offset.toNat)) (l.block kind).size.toNat

end Layout

/-- The bytes of a field that lies here with the given slot, counted from the start of the block. -/
def FieldOffset.bytes (o : FieldOffset) (slot : Slot) : Set ℕ :=
  Set.Ico o.offset.toNat (o.offset.toNat + slot.size.toNat)

/-- The fields of a layout fit their blocks: no two of them share a byte, and each is aligned as its slot
asks, lies behind the reserved bytes and ends within the block. -/
structure Layout.FitsBlocks (l : Layout) (m : Module) (target : Target) : Prop where
  disjoint : l.placements.Pairwise fun a b => a.2.block = b.2.block →
    ∀ slot slot', m.AsksFor target a.2.field.field slot → m.AsksFor target b.2.field.field slot' →
      Disjoint (a.2.bytes slot) (b.2.bytes slot')
  inside : ∀ p ∈ l.placements, ∃ slot, m.AsksFor target p.2.field.field slot ∧
    slot.alignment.toNat ∣ p.2.offset.toNat ∧
    m.reservedBytes p.2.block ≤ p.2.offset.toNat ∧
    p.2.offset.toNat + slot.size.toNat ≤ (l.block p.2.block).size.toNat

namespace Layout

variable {l : Layout} {m : Module} {target : Target} {kind : BlockKind}

/-! ## One block -/

/-- The place at some position of a block belongs to the field at that position of the routed fields. -/
theorem PacksBlock.asksFor_getElem (h : l.PacksBlock m target kind) {i : ℕ}
    (hi : i < (l.inBlock kind).length) (hr : i < (m.routedTo target kind m.statics).length) :
    m.AsksFor target (l.inBlock kind)[i].2.field.field
      (m.routedTo target kind m.statics)[i].slot := by
  have hfields := List.getElem_of_eq h.fields (by simpa using hi)
  rw [List.getElem_map, List.getElem_map] at hfields
  obtain ⟨-, hdemand⟩ := Module.mem_routedTo.1 (List.getElem_mem hr)
  have hfield : (l.inBlock kind)[i].2.field = m.qualify (m.routedTo target kind m.statics)[i].field :=
    (Prod.ext_iff.1 hfields).2
  rw [hfield]
  exact (Module.demand_eq_ok_iff.1 hdemand).1

/-- A place lies in its own block. -/
theorem mem_inBlock_block {p : TypeId × FieldOffset} (hp : p ∈ l.placements) :
    p ∈ l.inBlock p.2.block :=
  List.mem_filter.2 ⟨hp, by simp⟩

/-- The field of a place demands its slot in the block where it lies. -/
theorem PacksBlock.exists_demand (h : l.PacksBlock m target kind) {p : TypeId × FieldOffset}
    (hp : p ∈ l.inBlock kind) :
    ∃ slot, m.demand target p.2.field.field = .ok ⟨kind, slot⟩ := by
  have hplaced : (p.1, p.2.field) ∈ (l.inBlock kind).map fun p => (p.1, p.2.field) :=
    List.mem_map.2 ⟨p, hp, rfl⟩
  rw [h.fields] at hplaced
  obtain ⟨r, hr, heq⟩ := List.mem_map.1 hplaced
  have hfield : m.qualify r.field = p.2.field := (Prod.ext_iff.1 heq).2
  rw [← hfield]
  exact ⟨r.slot, (Module.mem_routedTo.1 hr).2⟩

/-- As many places lie in a block as fields are routed there. -/
theorem PacksBlock.length_eq (h : l.PacksBlock m target kind) :
    (l.inBlock kind).length = (m.routedTo target kind m.statics).length := by
  simpa using congrArg List.length h.fields

/-- The fields of a block share no byte. -/
theorem PacksBlock.pairwise_disjoint (h : l.PacksBlock m target kind) :
    (l.inBlock kind).Pairwise fun a b =>
      ∀ slot slot', m.AsksFor target a.2.field.field slot → m.AsksFor target b.2.field.field slot' →
        Disjoint (a.2.bytes slot) (b.2.bytes slot') := by
  rw [List.pairwise_iff_getElem]
  intro i j hi hj hij slot slot' hslot hslot'
  have hri : i < (m.routedTo target kind m.statics).length := h.length_eq ▸ hi
  obtain rfl := (h.asksFor_getElem hi hri).unique hslot
  have hle := h.packed.getElem_le_getElem hij (by simpa using hri) (by simpa using hj)
  simp only [List.getElem_map] at hle
  -- the first range ends before the second begins
  apply Set.disjoint_left.2
  intro k hk hk'
  exact absurd (hk.2.trans_le hle) (Nat.not_lt.2 hk'.1)

/-- Every field of a block lies where its slot may lie. -/
theorem PacksBlock.bounds (h : l.PacksBlock m target kind) {p : TypeId × FieldOffset}
    (hp : p ∈ l.inBlock kind) :
    ∃ slot, m.AsksFor target p.2.field.field slot ∧ slot.alignment.toNat ∣ p.2.offset.toNat ∧
      m.reservedBytes kind ≤ p.2.offset.toNat ∧
      p.2.offset.toNat + slot.size.toNat ≤ (l.block kind).size.toNat := by
  obtain ⟨i, hi, rfl⟩ := List.getElem_of_mem hp
  have hri : i < (m.routedTo target kind m.statics).length := h.length_eq ▸ hi
  have hbounds := h.packed.getElem_bounds (by simpa using hri) (by simpa using hi)
  simp only [List.getElem_map] at hbounds
  exact ⟨_, h.asksFor_getElem hi hri, hbounds⟩

/-- What holds of any two places in one block, block by block, holds of any two places of the layout
that lie in one block. -/
theorem pairwise_placements {R : TypeId × FieldOffset → TypeId × FieldOffset → Prop}
    (h : ∀ kind, (l.inBlock kind).Pairwise R) :
    l.placements.Pairwise fun a b => a.2.block = b.2.block → R a b := by
  rw [List.pairwise_iff_getElem]
  intro i j hi hj hij hblock
  have hkind := h l.placements[j].2.block
  rw [inBlock, List.pairwise_filter, List.pairwise_iff_getElem] at hkind
  exact hkind i j hi hj hij (by simpa using hblock) (by simp)

/-- Blocks that are packings of their own fit their fields. -/
theorem FitsBlocks.of_packsBlock (h : ∀ kind, l.PacksBlock m target kind) :
    l.FitsBlocks m target where
  disjoint := pairwise_placements fun kind => (h kind).pairwise_disjoint
  inside p hp := (h p.2.block).bounds (mem_inBlock_block hp)

end Layout

/-! ## All blocks -/

/-- A module with fields in all four blocks, declared across two types, and a generic type beside them. -/
def mixedModule : Module :=
  .build ⟨1⟩ 8 [
    .type ⟨"App", "Point"⟩, .type ⟨"App", "Holder"⟩, .genericType ⟨"App", "Pool"⟩ 1,
    .field ⟨2⟩ "flag" .static [0x06, 0x02],
    .field ⟨2⟩ "name" .static [0x06, 0x0E],
    .field ⟨2⟩ "count" .static [0x06, 0x0A],
    .field ⟨1⟩ "origin" .static [0x06, 0x11, 0x04],
    .field ⟨2⟩ "foreign" .static [0x06, 0x11, 0x05],
    .field ⟨2⟩ "scratch" .static [0x06, 0x08],
    .field ⟨2⟩ "buffer" .static [0x06, 0x1C],
    .fieldAttribute ⟨6⟩ Module.threadStaticMarker,
    .fieldAttribute ⟨7⟩ Module.threadStaticMarker,
    .field ⟨3⟩ "shared" .static [0x06, 0x1C]]

/-- Its layout for primitives of sixteen bytes. -/
def mixedLayout : Layout where
  home := ⟨1⟩
  blocks := ⟨⟨16, 16⟩, ⟨80, 16⟩, ⟨8, 16⟩, ⟨32, 16⟩⟩
  types := ⟨[
    (1, [⟨⟨⟨1⟩, ⟨4⟩⟩, .gc, 0⟩]),
    (2, [⟨⟨⟨1⟩, ⟨1⟩⟩, .nonGc, 51⟩, ⟨⟨⟨1⟩, ⟨2⟩⟩, .gc, 8⟩, ⟨⟨⟨1⟩, ⟨3⟩⟩, .nonGc, 56⟩,
      ⟨⟨⟨1⟩, ⟨5⟩⟩, .nonGc, 64⟩, ⟨⟨⟨1⟩, ⟨6⟩⟩, .threadNonGc, 28⟩, ⟨⟨⟨1⟩, ⟨7⟩⟩, .threadGc, 0⟩])],
    by decide⟩

theorem layout_mixedModule : mixedModule.layout ⟨16⟩ = .ok mixedLayout := by cbv

namespace Module

variable {m : Module} {options : LayoutOptions} {l : Layout}

/-- The walk behind a layout packs every block. -/
theorem packsBlock_of_walk {target : Target} {start sizes : BlockSizes}
    (htarget : Target.check m.pointerSize options = .ok target)
    (hstart : target.reserved m.typeCount = .ok start)
    (hwalk : m.placeStatics target m.statics start = .ok (l.placements, sizes))
    (hblocks : ∀ kind, l.block kind = ⟨sizes.get kind, target.largestPrimitive⟩)
    (kind : BlockKind) : l.PacksBlock m target kind where
  fields := placeStatics_routed hwalk kind
  packed := by
    rw [← Target.toNat_get_reserved htarget hstart kind, hblocks kind]
    exact placeStatics_packed hwalk kind

/-- A layout for a target packs each of its blocks. -/
theorem packsBlock_of_layout {target : Target}
    (htarget : Target.check m.pointerSize options = .ok target)
    (h : m.layout options = .ok l) (kind : BlockKind) : l.PacksBlock m target kind := by
  obtain ⟨start, sizes, hstart, hwalk, hblocks⟩ := walk_of_layout htarget h
  exact packsBlock_of_walk htarget hstart hwalk hblocks kind

/-- A layout packs each of its blocks as though the block were alone: every static has a demand, and a
block holds the fields that demand room in it, in the order of the walk, each at the least multiple of its
alignment that is not below the end of the one before. Every block is aligned for the largest
primitive. -/
theorem packsBlocks_of_layout (h : m.layout options = .ok l) :
    ∃ target, Target.check m.pointerSize options = .ok target ∧
      (∀ p ∈ m.statics, ∃ demand, m.demand target p.2 = .ok demand) ∧
      ∀ kind, l.PacksBlock m target kind ∧ (l.block kind).alignment = options.largestPrimitive := by
  obtain ⟨target, start, sizes, htarget, hstart, hwalk, -, hblocks⟩ := layout_eq_ok h
  refine ⟨target, htarget, exists_demand_of_placeStatics hwalk, fun kind =>
    ⟨packsBlock_of_walk htarget hstart hwalk hblocks kind, ?_⟩⟩
  rw [hblocks kind]
  exact (Target.check_eq_ok htarget).2

theorem packsBlocks_of_layout_mixedModule :
    mixedModule.layout ⟨16⟩ = .ok mixedLayout ∧
      ∃ target, Target.check 8 ⟨16⟩ = .ok target ∧
        (∀ p ∈ mixedModule.statics, ∃ demand, mixedModule.demand target p.2 = .ok demand) ∧
        ∀ kind, mixedLayout.PacksBlock mixedModule target kind ∧
          (mixedLayout.block kind).alignment = 16 :=
  ⟨layout_mixedModule, packsBlocks_of_layout layout_mixedModule⟩

/-- The fields that a layout places fit their blocks. -/
theorem fitsBlocks_of_layout (h : m.layout options = .ok l) :
    ∃ target, Target.check m.pointerSize options = .ok target ∧ l.FitsBlocks m target := by
  obtain ⟨target, start, sizes, htarget, hstart, hwalk, -, hblocks⟩ := layout_eq_ok h
  exact ⟨target, htarget,
    Layout.FitsBlocks.of_packsBlock (packsBlock_of_walk htarget hstart hwalk hblocks)⟩

theorem fitsBlocks_of_layout_mixedModule :
    mixedModule.layout ⟨16⟩ = .ok mixedLayout ∧
      ∃ target, Target.check 8 ⟨16⟩ = .ok target ∧ mixedLayout.FitsBlocks mixedModule target :=
  ⟨layout_mixedModule, fitsBlocks_of_layout layout_mixedModule⟩

end Module

end StaticStorage
