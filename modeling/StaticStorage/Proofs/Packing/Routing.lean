import StaticStorage.Proofs.Packing.Blocks
import StaticStorage.Proofs.Packing.SlotRules
import StaticStorage.Proofs.Signature.Reading

/-!
# Where a field goes

The block of a placed field is decided by its signature and by its attributes alone: references and boxes
of value types go where the collector looks, everything else goes to the raw blocks, and the marker
decides between the blocks of the process and those of a thread.

* `placed_of_layout` — the signature, the slot and the block behind every place of a layout.
* `referenceBlocks_of_layout` — the blocks of the collector are arrays of pointers, and hold the references
  and nothing else.
* `routing_of_layout` — the block of a field and the rule of its slot, read off the signature's bytes.
-/

namespace StaticStorage

/-! ## Queries -/

/-- A slot holds a reference by one of two rules. -/
theorem Slot.isGc_eq_true_iff {slot : Slot} :
    slot.isGc = true ↔ slot.kind = .gcReference ∨ slot.kind = .boxedValueType := by
  unfold Slot.isGc
  cases slot.kind <;> simp

/-- One tag alone stands for a value type. -/
theorem Element.category_eq_valueType_iff {e : Element} : e.category = .valueType ↔ e = .valueType := by
  constructor
  · intro h
    unfold Element.category at h
    split at h
    · next name category hlookup =>
      obtain ⟨front, back, htable, -⟩ := List.lookup_eq_some_iff.1 hlookup
      have hmem : (e.raw, name, category) ∈ Element.table := by
        rw [htable]
        exact List.mem_append_right front List.mem_cons_self
      have hsole : ∀ entry ∈ Element.table, entry.2.2 = .valueType → entry.1 = 0x11 := by decide
      exact congrArg Element.mk (hsole _ hmem h)
    · cases h
  · rintro rfl
    rfl

/-- What is decoded comes with a handle just when it is a value type. -/
theorem FieldSignature.isSome_valueType_of_decode {blob : List UInt8} {s : FieldSignature}
    (h : FieldSignature.decode blob = .ok s) : s.valueType.isSome ↔ s.element = .valueType := by
  obtain ⟨form, -, rfl⟩ := FieldSignature.decode_eq_ok_iff_exists_form.1 h
  exact form.type.isSome_valueType_signature

namespace Module

variable {m : Module} {target : Target} {options : LayoutOptions} {l : Layout}

theorem fieldHasAttribute_eq_true_iff {f : FieldId} {attr : QualifiedName} :
    m.fieldHasAttribute f attr = true ↔ ∃ field, m.field? f = some field ∧ attr ∈ field.attributes := by
  unfold fieldHasAttribute
  cases m.field? f <;> simp

theorem typeHasAttribute_eq_false_iff {t : TypeId} {attr : QualifiedName} :
    m.typeHasAttribute t attr = false ↔ ∀ type, m.type? t = some type → attr ∉ type.attributes := by
  unfold typeHasAttribute
  cases m.type? t <;> simp

/-! ## What is placed -/

/-- A place in a layout comes from a signature: the one that its field's blob is decoded to, the slot that
a rule gives this signature, and the block that the slot and the thread marker select. -/
structure PlacedBy (m : Module) (target : Target) (o : FieldOffset) (s : FieldSignature)
    (slot : Slot) : Prop where
  decode_eq : FieldSignature.decode (m.signatureOf o.field.field) = .ok s
  rule : m.SlotRule target s slot
  block_eq : o.block = .select slot.isGc (m.isThreadStatic o.field.field)

/-- Every place in a layout comes from a signature. -/
theorem placed_of_layout (htarget : Target.check m.pointerSize options = .ok target)
    (h : m.layout options = .ok l) {p : TypeId × FieldOffset} (hp : p ∈ l.placements) :
    ∃ s slot, m.PlacedBy target p.2 s slot := by
  obtain ⟨slot, hdemand⟩ :=
    (packsBlock_of_layout htarget h p.2.block).exists_demand (Layout.mem_inBlock_block hp)
  obtain ⟨⟨s, hdecode, hslot⟩, hblock⟩ := demand_eq_ok_iff.1 hdemand
  exact ⟨s, slot, hdecode, slotFor_eq_ok_iff.1 hslot, hblock⟩

namespace PlacedBy

variable {o : FieldOffset} {s : FieldSignature} {slot : Slot}

theorem asksFor (h : m.PlacedBy target o s slot) : m.AsksFor target o.field.field slot :=
  ⟨s, h.decode_eq, slotFor_eq_ok_iff.2 h.rule⟩

/-- A place is in a block of the collector when its slot holds a reference. -/
theorem isGc_block (h : m.PlacedBy target o s slot) : o.block.isGc = slot.isGc := by
  rw [h.block_eq, BlockKind.isGc_select]

/-- A place is in a block of a thread when its field carries the marker. -/
theorem isThreadLocal_block (h : m.PlacedBy target o s slot) :
    o.block.isThreadLocal = m.isThreadStatic o.field.field := by
  rw [h.block_eq, BlockKind.isThreadLocal_select]

/-- No place comes from a tag without a storage class: it would need a handle, and only value types come
with one. -/
theorem category_ne_unrecognized (h : m.PlacedBy target o s slot) : s.category ≠ .unrecognized := by
  intro hcategory
  have hkind : slot.kind = .pessimistic := h.rule.pessimistic_iff.2 (.inr hcategory)
  have helement : s.element = .valueType :=
    (FieldSignature.isSome_valueType_of_decode h.decode_eq).1 (h.rule.eq_square_of_pessimistic hkind).2
  rw [FieldSignature.category, Element.category_eq_valueType_iff.2 helement] at hcategory
  cases hcategory

end PlacedBy

end Module

/-! ## The blocks of the collector -/

namespace Layout

/-- One block of a layout is an array of pointers: the fields routed there lie one directly behind the
other, from the first byte on and in the order of the walk, and the block ends with the last of them. -/
structure IsPointerArray (l : Layout) (m : Module) (target : Target) (kind : BlockKind) : Prop where
  fields : (l.inBlock kind).map (fun p => (p.1, p.2.field)) =
    (m.routedTo target kind m.statics).map fun r => (r.type, m.qualify r.field)
  offsets : (l.inBlock kind).map (·.2.offset.toNat) =
    (List.range (m.routedTo target kind m.statics).length).map fun i => i * m.pointerSize.toNat
  size : (l.block kind).size.toNat =
    (m.routedTo target kind m.statics).length * m.pointerSize.toNat

/-- The two blocks that the collector scans are arrays of pointers, and the fields in them are those
that hold a reference or a box. -/
structure ReferenceBlocks (l : Layout) (m : Module) (target : Target) : Prop where
  gc : l.IsPointerArray m target .gc
  threadGc : l.IsPointerArray m target .threadGc
  isGc_iff : ∀ p ∈ l.placements, ∃ slot, m.AsksFor target p.2.field.field slot ∧
    (p.2.block.isGc = true ↔ slot.kind = .gcReference ∨ slot.kind = .boxedValueType)

end Layout

namespace Module

variable {m : Module} {target : Target} {options : LayoutOptions} {l : Layout} {kind : BlockKind}

/-- What is routed to a block of the collector is a pointer. -/
theorem slot_of_mem_routedTo (hkind : kind.isGc = true) {fields : List (TypeId × FieldId)}
    {r : RoutedField} (hr : r ∈ m.routedTo target kind fields) :
    r.slot.alignment = target.pointerSize ∧ r.slot.size = target.pointerSize := by
  obtain ⟨-, hdemand⟩ := mem_routedTo.1 hr
  obtain ⟨⟨s, -, hslot⟩, hblock⟩ := demand_eq_ok_iff.1 hdemand
  dsimp only at hslot hblock
  have hgc : r.slot.isGc = true := by
    rw [← BlockKind.isGc_select r.slot.isGc (m.isThreadStatic r.field), ← hblock]
    exact hkind
  rw [(slotFor_eq_ok_iff.1 hslot).eq_square_of_isGc hgc]
  exact ⟨rfl, rfl⟩

/-- Nothing is reserved where references live. -/
theorem reservedBytes_of_isGc (hkind : kind.isGc = true) : m.reservedBytes kind = 0 := by
  cases kind <;> first | rfl | cases hkind

/-- A block of the collector is an array of pointers. -/
theorem isPointerArray_of_isGc (htarget : Target.check m.pointerSize options = .ok target)
    (h : m.layout options = .ok l) (hkind : kind.isGc = true) : l.IsPointerArray m target kind := by
  obtain ⟨hfields, hpacked⟩ := packsBlock_of_layout htarget h kind
  obtain ⟨hpointer, -⟩ := Target.check_eq_ok htarget
  have hslots : ∀ slot ∈ (m.routedTo target kind m.statics).map (·.slot),
      slot.alignment.toNat = m.pointerSize.toNat ∧ slot.size.toNat = m.pointerSize.toNat := by
    intro slot hslot
    obtain ⟨r, hr, rfl⟩ := List.mem_map.1 hslot
    obtain ⟨halignment, hsize⟩ := slot_of_mem_routedTo hkind hr
    rw [halignment, hsize, hpointer]
    exact ⟨rfl, rfl⟩
  rw [reservedBytes_of_isGc hkind] at hpacked
  obtain ⟨hoffsets, hstop⟩ := hpacked.eq_map_range (Nat.dvd_zero _) hslots
  simp only [List.length_map, Nat.zero_add] at hoffsets hstop
  exact ⟨hfields, hoffsets, hstop⟩

/-- In every layout the blocks of the collector are arrays of pointers, one for each reference and each
box, and no reference lies anywhere else. -/
theorem referenceBlocks_of_layout (h : m.layout options = .ok l) :
    ∃ target, Target.check m.pointerSize options = .ok target ∧ l.ReferenceBlocks m target := by
  obtain ⟨target, htarget⟩ := exists_target_of_layout h
  refine ⟨target, htarget, isPointerArray_of_isGc htarget h rfl, isPointerArray_of_isGc htarget h rfl, ?_⟩
  intro p hp
  obtain ⟨s, slot, hplaced⟩ := placed_of_layout htarget h hp
  refine ⟨slot, hplaced.asksFor, ?_⟩
  rw [hplaced.isGc_block]
  exact Slot.isGc_eq_true_iff

theorem referenceBlocks_of_layout_mixedModule :
    mixedModule.layout ⟨16⟩ = .ok mixedLayout ∧
      ∃ target, Target.check 8 ⟨16⟩ = .ok target ∧ mixedLayout.ReferenceBlocks mixedModule target :=
  ⟨layout_mixedModule, referenceBlocks_of_layout layout_mixedModule⟩

end Module

/-! ## From the bytes of a signature to a block -/

namespace Module

variable {m : Module} {target : Target} {options : LayoutOptions} {l : Layout} {o : FieldOffset}
  {s : FieldSignature} {slot : Slot}

/-- What the signature and the attributes of a placed field say about its place. -/
structure RoutedBy (m : Module) (options : LayoutOptions) (o : FieldOffset) (s : FieldSignature)
    (slot : Slot) : Prop where
  /-- The blocks of a thread hold the fields with the thread marker. -/
  isThreadLocal_iff : o.block.isThreadLocal = true ↔
    ∃ field, m.field? o.field.field = some field ∧
      ⟨"System", "ThreadStaticAttribute"⟩ ∈ field.attributes
  /-- The blocks of the collector hold references and the value types of the module. -/
  isGc_iff : o.block.isGc = true ↔ s.category = .reference ∨
    s.element = .valueType ∧ ∃ t, s.valueType = some (.typeDef t) ∧
      1 ≤ t.row.toNat ∧ t.row ≤ m.typeCount
  /-- None of these value types is confined to the stack. -/
  boxable : s.element = .valueType → ∀ t, s.valueType = some (.typeDef t) →
    1 ≤ t.row.toNat → t.row ≤ m.typeCount → ∀ type, m.type? t = some type →
      ⟨"System.Runtime.CompilerServices", "IsByRefLikeAttribute"⟩ ∉ type.attributes
  /-- Room for the largest primitive is taken by the value types that are none of the module's. -/
  pessimistic_iff : slot.kind = .pessimistic ∧ slot.size = options.largestPrimitive ↔
    s.element = .valueType ∧ ∃ handle, s.valueType = some handle ∧ m.Foreign handle
  not_byRef : s.category ≠ .byRef
  recognized : s.category ≠ .unrecognized

namespace PlacedBy

/-- The blocks of the collector hold references and the value types of the module. -/
theorem isGc_block_iff (h : m.PlacedBy target o s slot) :
    o.block.isGc = true ↔ s.category = .reference ∨
      s.element = .valueType ∧ ∃ t, s.valueType = some (.typeDef t) ∧
        1 ≤ t.row.toNat ∧ t.row ≤ m.typeCount := by
  rw [h.isGc_block, h.rule.isGc_iff, FieldSignature.category, Element.category_eq_valueType_iff]

/-- Room for the largest primitive is taken by the value types that are none of the module's. -/
theorem pessimistic_iff (h : m.PlacedBy target o s slot) :
    slot.kind = .pessimistic ∧ slot.size = target.largestPrimitive ↔
      s.element = .valueType ∧ ∃ handle, s.valueType = some handle ∧ m.Foreign handle := by
  have hsize : slot.kind = .pessimistic → slot.size = target.largestPrimitive := by
    intro hkind
    rw [(h.rule.eq_square_of_pessimistic hkind).1]
    rfl
  rw [and_iff_left_of_imp hsize, h.rule.pessimistic_iff, or_iff_left h.category_ne_unrecognized,
    FieldSignature.category, Element.category_eq_valueType_iff]

/-- A place is routed by the signature that it comes from. -/
theorem routedBy (h : m.PlacedBy target o s slot)
    (hlargest : target.largestPrimitive = options.largestPrimitive) : m.RoutedBy options o s slot where
  isThreadLocal_iff := by
    rw [h.isThreadLocal_block]
    exact fieldHasAttribute_eq_true_iff
  isGc_iff := h.isGc_block_iff
  boxable helement t hhandle hpos hle :=
    typeHasAttribute_eq_false_iff.1 (h.rule.typeHasAttribute_eq_false
      (Element.category_eq_valueType_iff.2 helement) hhandle
      (resolveType?_eq_some_iff.2 ⟨rfl, hpos, hle⟩))
  pessimistic_iff := hlargest ▸ h.pessimistic_iff
  not_byRef := h.rule.category_ne_byRef
  recognized := h.category_ne_unrecognized

end PlacedBy

/-- In every layout the signature and the attributes of a field decide its block and the rule of its
slot. -/
theorem routing_of_layout (h : m.layout options = .ok l) :
    ∃ target, Target.check m.pointerSize options = .ok target ∧
      ∀ p ∈ l.placements, ∃ s slot,
        FieldSignature.decode (m.signatureOf p.2.field.field) = .ok s ∧
        m.slotFor target s = .ok slot ∧ m.RoutedBy options p.2 s slot := by
  obtain ⟨target, htarget⟩ := exists_target_of_layout h
  refine ⟨target, htarget, fun p hp => ?_⟩
  obtain ⟨s, slot, hplaced⟩ := placed_of_layout htarget h hp
  exact ⟨s, slot, hplaced.decode_eq, slotFor_eq_ok_iff.2 hplaced.rule,
    hplaced.routedBy (Target.check_eq_ok htarget).2⟩

end Module

/-- A module with value types of every origin, a generic class, a modifier in front of a tag, and a marker
of the right name in the wrong namespace. -/
def assortedModule : Module :=
  .build ⟨1⟩ 8 [
    .type ⟨"App", "Point"⟩, .type ⟨"App", "Holder"⟩, .type ⟨"App", "Span"⟩,
    .typeAttribute ⟨3⟩ Module.byRefLikeMarker,
    .field ⟨2⟩ "names" .static [0x06, 0x15, 0x12, 0x05, 0x01, 0x08],
    .field ⟨2⟩ "origin" .static [0x06, 0x11, 0x04],
    .field ⟨2⟩ "foreign" .static [0x06, 0x11, 0x05],
    .field ⟨2⟩ "shape" .static [0x06, 0x11, 0x06],
    .field ⟨2⟩ "nothing" .static [0x06, 0x11, 0x00],
    .field ⟨2⟩ "missing" .static [0x06, 0x11, 0x10],
    .field ⟨2⟩ "current" .static [0x06, 0x1F, 0x05, 0x11, 0x04],
    .field ⟨2⟩ "count" .static [0x06, 0x08],
    .fieldAttribute ⟨7⟩ Module.threadStaticMarker,
    .fieldAttribute ⟨8⟩ ⟨"System.Threading", "ThreadStaticAttribute"⟩]

/-- Its layout for primitives of eight bytes. -/
def assortedLayout : Layout where
  home := ⟨1⟩
  blocks := ⟨⟨16, 8⟩, ⟨92, 8⟩, ⟨8, 8⟩, ⟨27, 8⟩⟩
  types := ⟨[
    (2, [⟨⟨⟨1⟩, ⟨1⟩⟩, .gc, 0⟩, ⟨⟨⟨1⟩, ⟨2⟩⟩, .gc, 8⟩, ⟨⟨⟨1⟩, ⟨3⟩⟩, .nonGc, 56⟩,
      ⟨⟨⟨1⟩, ⟨4⟩⟩, .nonGc, 64⟩, ⟨⟨⟨1⟩, ⟨5⟩⟩, .nonGc, 72⟩, ⟨⟨⟨1⟩, ⟨6⟩⟩, .nonGc, 80⟩,
      ⟨⟨⟨1⟩, ⟨7⟩⟩, .threadGc, 0⟩, ⟨⟨⟨1⟩, ⟨8⟩⟩, .nonGc, 88⟩])],
    by decide⟩

theorem layout_assortedModule : assortedModule.layout ⟨8⟩ = .ok assortedLayout := by cbv

theorem Module.routing_of_layout_assortedModule :
    assortedModule.layout ⟨8⟩ = .ok assortedLayout ∧
      ∃ target, Target.check 8 ⟨8⟩ = .ok target ∧
        ∀ p ∈ assortedLayout.placements, ∃ s slot,
          FieldSignature.decode (assortedModule.signatureOf p.2.field.field) = .ok s ∧
          assortedModule.slotFor target s = .ok slot ∧ assortedModule.RoutedBy ⟨8⟩ p.2 s slot :=
  ⟨layout_assortedModule, routing_of_layout layout_assortedModule⟩

end StaticStorage
