import StaticStorage.Layout.Packing
import StaticStorage.Proofs.Packing.Packed

/-!
# The walk over a module's statics

The statics of a module are placed in a single walk that keeps four counters at once. Here the walk is
taken apart: what one step does to the counters, and what a whole walk does to each of them. A step
moves the counter of one block and leaves the other three alone, so that the walk comes to four
independent packings.

* `place_eq_ok` — everything that placing one field does.
* `placeStatics_routed`, `placeStatics_packed` — a walk puts into each block the fields routed there, in
  order, and packs their slots.
* `layout_eq_ok` — a layout lists exactly what its walk placed, in the order of the walk.
-/

namespace StaticStorage

/-- A static field with its type and the slot that it asks for. -/
structure RoutedField where
  type : TypeId
  field : FieldId
  slot : Slot

namespace Module

variable {m : Module} {target : Target}

/-- The field asks for the slot: it is the one that the field's decoded signature is given. -/
def AsksFor (m : Module) (target : Target) (f : FieldId) (slot : Slot) : Prop :=
  ∃ signature, FieldSignature.decode (m.signatureOf f) = .ok signature ∧
    m.slotFor target signature = .ok slot

/-- The fields of a list that ask for room in one block, in the order of the list. -/
def routedTo (m : Module) (target : Target) (kind : BlockKind) (fields : List (TypeId × FieldId)) :
    List RoutedField :=
  fields.filterMap fun (t, f) =>
    match m.demand target f with
    | .ok demand => if demand.block = kind then some ⟨t, f, demand.slot⟩ else none
    | .error _ => none

/-- The bytes at the start of a block that no field may use: a header and one byte for every type, and
nothing where references live. -/
def reservedBytes (m : Module) : BlockKind → ℕ
  | .gc | .threadGc => 0
  | .nonGc => 6 * m.pointerSize.toNat + m.typeCount.toNat
  | .threadNonGc => 3 * m.pointerSize.toNat + m.typeCount.toNat

/-! ## Demands -/

/-- A field asks for one slot at most. -/
theorem AsksFor.unique {f : FieldId} {slot slot' : Slot} (h : m.AsksFor target f slot)
    (h' : m.AsksFor target f slot') : slot = slot' := by
  obtain ⟨signature, hdecode, hslot⟩ := h
  obtain ⟨signature', hdecode', hslot'⟩ := h'
  rw [hdecode] at hdecode'
  obtain rfl := Except.ok.inj hdecode'
  rw [hslot] at hslot'
  exact Except.ok.inj hslot'

/-- What a field demands: the slot that it asks for, in the block that the slot and the thread marker
select. -/
theorem demand_eq_ok_iff {f : FieldId} {demand : Demand} :
    m.demand target f = .ok demand ↔
      m.AsksFor target f demand.slot ∧
        demand.block = .select demand.slot.isGc (m.isThreadStatic f) := by
  unfold Module.demand
  rw [bind_eq_ok]
  constructor
  · rintro ⟨signature, hdecode, h⟩
    obtain ⟨slot, hslot, h⟩ := bind_eq_ok.1 h
    obtain rfl := Except.ok.inj h
    exact ⟨⟨signature, mapError_eq_ok.1 hdecode, mapError_eq_ok.1 hslot⟩, rfl⟩
  · rintro ⟨⟨signature, hdecode, hslot⟩, hblock⟩
    refine ⟨signature, mapError_eq_ok.2 hdecode, bind_eq_ok.2 ⟨demand.slot, mapError_eq_ok.2 hslot, ?_⟩⟩
    rw [← hblock]
    rfl

/-- The fields routed to a block are those of the list that demand room in it. -/
theorem mem_routedTo {kind : BlockKind} {fields : List (TypeId × FieldId)} {r : RoutedField} :
    r ∈ m.routedTo target kind fields ↔
      (r.type, r.field) ∈ fields ∧ m.demand target r.field = .ok ⟨kind, r.slot⟩ := by
  obtain ⟨t, f, slot⟩ := r
  unfold routedTo
  rw [List.mem_filterMap]
  constructor
  · rintro ⟨⟨t', f'⟩, hmem, hrouted⟩
    dsimp only at hrouted
    cases hdemand : m.demand target f' with
    | error defect => simp [hdemand] at hrouted
    | ok demand =>
      rw [hdemand] at hrouted
      dsimp only at hrouted
      split at hrouted
      · next hkind =>
        cases hrouted
        exact ⟨hmem, by rw [hdemand, ← hkind]⟩
      · cases hrouted
  · rintro ⟨hmem, hdemand⟩
    exact ⟨(t, f), hmem, by simp [hdemand]⟩

/-! ## One step of the walk -/

/-- Everything that placing one field does: the field's place is the next aligned one in the block that
it demands, and that block alone grows, up to the end of the place. -/
theorem place_eq_ok {f : FieldId} {sizes sizes' : BlockSizes} {o : FieldOffset}
    (h : m.place target f sizes = .ok (o, sizes')) :
    ∃ slot size, m.demand target f = .ok ⟨o.block, slot⟩ ∧ o.field = m.qualify f ∧
      Word.alignUp? (sizes.get o.block) slot.alignment = some o.offset ∧
      Word.add? o.offset slot.size = some size ∧ sizes' = sizes.set o.block size := by
  unfold Module.place at h
  obtain ⟨demand, hdemand, h⟩ := bind_eq_ok.1 h
  obtain ⟨⟨offset, grown⟩, hplace, h⟩ := bind_eq_ok.1 h
  obtain ⟨rfl, rfl⟩ := Prod.ext_iff.1 (Except.ok.inj h)
  rw [LayoutError.orOverflow_eq_ok] at hplace
  obtain ⟨offset, halign, hplace⟩ := Option.bind_eq_some_iff.1 hplace
  obtain ⟨size, hsize, hplace⟩ := Option.bind_eq_some_iff.1 hplace
  obtain ⟨rfl, rfl⟩ := Prod.ext_iff.1 (Option.some.inj hplace)
  exact ⟨demand.slot, size, hdemand, rfl, halign, hsize, rfl⟩

/-- A walk that goes through places the first field and then walks on. -/
theorem placeStatics_cons_eq_ok {t : TypeId} {f : FieldId} {fields : List (TypeId × FieldId)}
    {sizes sizes' : BlockSizes} {placed : List (TypeId × FieldOffset)}
    (h : m.placeStatics target ((t, f) :: fields) sizes = .ok (placed, sizes')) :
    ∃ o sizes₁ rest, m.place target f sizes = .ok (o, sizes₁) ∧
      m.placeStatics target fields sizes₁ = .ok (rest, sizes') ∧ placed = (t, o) :: rest := by
  rw [placeStatics_cons] at h
  obtain ⟨⟨o, sizes₁⟩, hplace, h⟩ := bind_eq_ok.1 h
  obtain ⟨⟨rest, sizes₂⟩, hrest, h⟩ := bind_eq_ok.1 h
  obtain ⟨rfl, rfl⟩ := Prod.ext_iff.1 (Except.ok.inj h)
  exact ⟨o, sizes₁, rest, hplace, hrest, rfl⟩

/-! ## The whole walk -/

/-- A walk that goes through met a demand at every field. -/
theorem exists_demand_of_placeStatics {fields : List (TypeId × FieldId)} {sizes sizes' : BlockSizes}
    {placed : List (TypeId × FieldOffset)}
    (h : m.placeStatics target fields sizes = .ok (placed, sizes')) :
    ∀ p ∈ fields, ∃ demand, m.demand target p.2 = .ok demand := by
  induction fields generalizing sizes placed with
  | nil => exact fun p hp => absurd hp List.not_mem_nil
  | cons first fields ih =>
    obtain ⟨t, f⟩ := first
    obtain ⟨o, sizes₁, rest, hplace, hrest, rfl⟩ := placeStatics_cons_eq_ok h
    obtain ⟨slot, size, hdemand, -⟩ := place_eq_ok hplace
    rintro p hp
    rcases List.mem_cons.1 hp with rfl | hp
    · exact ⟨_, hdemand⟩
    · exact ih hrest p hp

/-- A walk places the fields of its list, each under its type and in the order of the list. -/
theorem map_placeStatics {fields : List (TypeId × FieldId)} {sizes sizes' : BlockSizes}
    {placed : List (TypeId × FieldOffset)}
    (h : m.placeStatics target fields sizes = .ok (placed, sizes')) :
    placed.map (fun p => (p.1, p.2.field)) = fields.map fun p => (p.1, m.qualify p.2) := by
  induction fields generalizing sizes placed with
  | nil =>
    cases h
    rfl
  | cons first fields ih =>
    obtain ⟨t, f⟩ := first
    obtain ⟨o, sizes₁, rest, hplace, hrest, rfl⟩ := placeStatics_cons_eq_ok h
    obtain ⟨slot, size, -, hfield, -⟩ := place_eq_ok hplace
    rw [List.map_cons, List.map_cons, ih hrest, hfield]

/-- What the walk puts into one block are the fields routed there, in order. -/
theorem placeStatics_routed {fields : List (TypeId × FieldId)} {sizes sizes' : BlockSizes}
    {placed : List (TypeId × FieldOffset)}
    (h : m.placeStatics target fields sizes = .ok (placed, sizes')) (kind : BlockKind) :
    (placed.filter (·.2.block = kind)).map (fun p => (p.1, p.2.field)) =
      (m.routedTo target kind fields).map fun r => (r.type, m.qualify r.field) := by
  induction fields generalizing sizes placed with
  | nil =>
    cases h
    rfl
  | cons first fields ih =>
    obtain ⟨t, f⟩ := first
    obtain ⟨o, sizes₁, rest, hplace, hrest, rfl⟩ := placeStatics_cons_eq_ok h
    obtain ⟨slot, size, hdemand, hfield, -⟩ := place_eq_ok hplace
    by_cases hkind : o.block = kind
    · have hrouted : m.routedTo target kind ((t, f) :: fields) =
          ⟨t, f, slot⟩ :: m.routedTo target kind fields := by
        simp [routedTo, hdemand, hkind]
      rw [hrouted, List.filter_cons_of_pos (by simpa using hkind), List.map_cons, List.map_cons,
        ih hrest, hfield]
    · have hrouted : m.routedTo target kind ((t, f) :: fields) = m.routedTo target kind fields := by
        simp [routedTo, hdemand, hkind]
      rw [hrouted, List.filter_cons_of_neg (by simpa using hkind), ih hrest]

/-- The walk packs each block for itself: the counter of a block moves as though the fields routed there
were the only ones. -/
theorem placeStatics_packed {fields : List (TypeId × FieldId)} {sizes sizes' : BlockSizes}
    {placed : List (TypeId × FieldOffset)}
    (h : m.placeStatics target fields sizes = .ok (placed, sizes')) (kind : BlockKind) :
    Packed (sizes.get kind).toNat ((m.routedTo target kind fields).map (·.slot))
      ((placed.filter (·.2.block = kind)).map (·.2.offset.toNat)) (sizes'.get kind).toNat := by
  induction fields generalizing sizes placed with
  | nil =>
    cases h
    exact .nil _
  | cons first fields ih =>
    obtain ⟨t, f⟩ := first
    obtain ⟨o, sizes₁, rest, hplace, hrest, rfl⟩ := placeStatics_cons_eq_ok h
    obtain ⟨slot, size, hdemand, -, halign, hsize, rfl⟩ := place_eq_ok hplace
    have hpacked := ih hrest
    -- only the counter of the field's own block has moved
    by_cases hkind : o.block = kind
    · subst hkind
      have hrouted : m.routedTo target o.block ((t, f) :: fields) =
          ⟨t, f, slot⟩ :: m.routedTo target o.block fields := by
        simp [routedTo, hdemand]
      rw [BlockTable.get_set, if_pos rfl, Word.add?_eq_some_iff.1 hsize] at hpacked
      rw [hrouted, List.filter_cons_of_pos (by simp), List.map_cons, List.map_cons]
      exact .cons (Word.isLeast_of_alignUp? halign) hpacked
    · have hrouted : m.routedTo target kind ((t, f) :: fields) = m.routedTo target kind fields := by
        simp [routedTo, hdemand, hkind]
      rw [BlockTable.get_set, if_neg (Ne.symm hkind)] at hpacked
      rwa [hrouted, List.filter_cons_of_neg (by simpa using hkind)]

/-- Places come in the order of their types when the fields do. -/
theorem pairwise_placeStatics {fields : List (TypeId × FieldId)} {sizes sizes' : BlockSizes}
    {placed : List (TypeId × FieldOffset)}
    (h : m.placeStatics target fields sizes = .ok (placed, sizes'))
    (hfields : fields.Pairwise fun a b => a.1.row ≤ b.1.row) :
    placed.Pairwise fun a b => a.1.row ≤ b.1.row := by
  -- the walk keeps the types, so that the places are in order just when the fields are
  have hrows : placed.map (·.1.row) = fields.map (·.1.row) := by
    have hmap := congrArg (List.map fun p : TypeId × QualifiedField => p.1.row) (map_placeStatics h)
    rw [List.map_map, List.map_map] at hmap
    exact hmap
  have hsorted : (fields.map (·.1.row)).Pairwise (· ≤ ·) := List.pairwise_map.2 hfields
  rw [← hrows] at hsorted
  exact List.pairwise_map.1 hsorted

/-! ## The layout -/

/-- The types of a module are listed in ascending order of their rows. -/
theorem pairwise_typeIds (m : Module) : m.typeIds.Pairwise fun a b => a.row < b.row := by
  unfold Module.typeIds
  rw [List.pairwise_map, List.pairwise_iff_getElem]
  intro i j hi hj hij
  have hj' : j < m.typeCount.toNat := by simpa using hj
  have hcount := m.typeCount.toNat_lt_size
  simp only [UInt32.size] at hcount
  rw [List.getElem_range, List.getElem_range, UInt32.lt_iff_toNat_lt,
    UInt32.toNat_ofNat_of_lt' (by simp only [UInt32.size]; omega),
    UInt32.toNat_ofNat_of_lt' (by simp only [UInt32.size]; omega)]
  omega

/-- The statics of a module come in ascending order of their types. -/
theorem pairwise_statics (m : Module) : m.statics.Pairwise fun a b => a.1.row ≤ b.1.row := by
  unfold Module.statics
  rw [List.pairwise_flatMap]
  constructor
  · intro t _
    split
    · exact .nil
    · rw [List.pairwise_map]
      exact List.pairwise_of_forall fun _ _ => UInt32.le_refl t.row
  · apply m.pairwise_typeIds.imp
    intro t t' hlt p hp p' hp'
    -- what a type contributes is listed under that type
    have hrow : ∀ {t : TypeId} {p : TypeId × FieldId},
        p ∈ (if m.isGeneric t then [] else (m.staticsOf t).map fun f => (t, f)) → p.1 = t := by
      intro t p hp
      split at hp
      · exact absurd hp List.not_mem_nil
      · obtain ⟨f, -, rfl⟩ := List.mem_map.1 hp
        rfl
    rw [hrow hp, hrow hp']
    exact UInt32.le_of_lt hlt

/-- In ascending order of the types, collecting and listing again changes nothing. -/
private theorem flatMap_collect_places {placed : List (TypeId × FieldOffset)}
    (h : placed.Pairwise fun a b => a.1.row ≤ b.1.row) :
    (WordMap.collect (placed.map fun (t, o) => (t.row, o))).entries.flatMap
      (fun (row, offsets) => offsets.map fun o => ((⟨row⟩ : TypeId), o)) = placed := by
  have hascending : (placed.map fun (t, o) => (t.row, o)).Pairwise fun a b => a.1 ≤ b.1 := by
    rw [List.pairwise_map]
    exact h
  have hrows := WordMap.flatMap_entries_collect hascending
  have hback := congrArg (List.map fun e : UInt32 × FieldOffset => ((⟨e.1⟩ : TypeId), e.2)) hrows
  rw [List.map_flatMap, List.map_map] at hback
  simp only [List.map_map] at hback
  exact hback.trans (List.map_id placed)

/-- For a target and the bytes reserved at the start of the blocks, a layout is what the walk makes of the
module's statics. -/
theorem layout_of_reserved {options : LayoutOptions} {start : BlockSizes}
    (htarget : Target.check m.pointerSize options = .ok target)
    (hstart : target.reserved m.typeCount = .ok start) :
    m.layout options = m.placeStatics target m.statics start >>= fun r =>
      .ok {
        home := m.id
        blocks := r.2.map fun size => { size, alignment := target.largestPrimitive }
        types := WordMap.collect (r.1.map fun p => (p.1.row, p.2)) } := by
  unfold Module.layout
  rw [htarget]
  change (target.reserved m.typeCount >>= _) = _
  rw [hstart]
  rfl

/-- A rejected target is the outcome, whatever the module contains. -/
theorem layout_of_check_eq_error {options : LayoutOptions} {e : LayoutError}
    (h : Target.check m.pointerSize options = .error e) : m.layout options = .error e :=
  bind_eq_error.2 (.inl h)

/-- Bytes that cannot be reserved are the outcome, before any field is visited. -/
theorem layout_of_reserved_eq_error {options : LayoutOptions} {e : LayoutError}
    (htarget : Target.check m.pointerSize options = .ok target)
    (hstart : target.reserved m.typeCount = .error e) : m.layout options = .error e :=
  bind_eq_error.2 (.inr ⟨target, htarget, bind_eq_error.2 (.inl hstart)⟩)

/-- What a layout is made of: its target, the bytes reserved at the start of the blocks, and a walk over
the module's statics, whose places it lists in the order of the walk and whose last counters are the
sizes of its blocks. -/
theorem layout_eq_ok {options : LayoutOptions} {l : Layout} (h : m.layout options = .ok l) :
    ∃ target start sizes, Target.check m.pointerSize options = .ok target ∧
      target.reserved m.typeCount = .ok start ∧
      m.placeStatics target m.statics start = .ok (l.placements, sizes) ∧
      l.home = m.id ∧ ∀ kind, l.block kind = ⟨sizes.get kind, target.largestPrimitive⟩ := by
  unfold Module.layout at h
  obtain ⟨target, htarget, h⟩ := bind_eq_ok.1 h
  obtain ⟨start, hstart, h⟩ := bind_eq_ok.1 h
  obtain ⟨⟨placed, sizes⟩, hwalk, h⟩ := bind_eq_ok.1 h
  obtain rfl := Except.ok.inj h
  have hplaced := flatMap_collect_places (pairwise_placeStatics hwalk m.pairwise_statics)
  refine ⟨target, start, sizes, htarget, hstart, ?_, rfl, fun kind => ?_⟩
  · rw [hwalk]
    exact congrArg (fun places => Except.ok (places, sizes)) hplaced.symm
  · exact BlockTable.get_map _ _ _

/-- A layout is made for a supported target only. -/
theorem exists_target_of_layout {options : LayoutOptions} {l : Layout} (h : m.layout options = .ok l) :
    ∃ target, Target.check m.pointerSize options = .ok target := by
  obtain ⟨target, -, -, htarget, -⟩ := layout_eq_ok h
  exact ⟨target, htarget⟩

/-- The walk behind a layout was made for the one target there is. -/
theorem walk_of_layout {options : LayoutOptions} {l : Layout}
    (htarget : Target.check m.pointerSize options = .ok target) (h : m.layout options = .ok l) :
    ∃ start sizes, target.reserved m.typeCount = .ok start ∧
      m.placeStatics target m.statics start = .ok (l.placements, sizes) ∧
      ∀ kind, l.block kind = ⟨sizes.get kind, target.largestPrimitive⟩ := by
  obtain ⟨target', start, sizes, htarget', hstart, hwalk, -, hblocks⟩ := layout_eq_ok h
  obtain rfl := Except.ok.inj (htarget.symm.trans htarget')
  exact ⟨start, sizes, hstart, hwalk, hblocks⟩

end Module

/-! ## The reserved bytes -/

/-- A target is rejected when its sizes are not supported, and the error names them. -/
theorem Target.check_eq_error_iff {pointerSize : UInt32} {options : LayoutOptions} {e : LayoutError} :
    Target.check pointerSize options = .error e ↔
      ¬ Supported pointerSize options.largestPrimitive ∧
        .unsupportedTarget pointerSize options.largestPrimitive = e := by
  unfold Target.check
  by_cases hsupported : Supported pointerSize options.largestPrimitive
  · rw [dif_pos hsupported]
    exact iff_of_false (by simp) fun h => h.1 hsupported
  · rw [dif_neg hsupported, Except.error.injEq, and_iff_right hsupported]

/-- The bytes of the blocks cannot be reserved when those of one raw block cannot. -/
theorem Target.reserved_eq_error_iff {target : Target} {typeCount : UInt32} {e : LayoutError} :
    target.reserved typeCount = .error e ↔
      (target.nonGcStart? typeCount = none ∨ target.threadNonGcStart? typeCount = none) ∧
        e = .overflow := by
  unfold Target.reserved
  cases target.nonGcStart? typeCount with
  | none => simp [LayoutError.orOverflow, bind, Except.bind, eq_comm]
  | some start =>
    cases target.threadNonGcStart? typeCount with
    | none => simp [LayoutError.orOverflow, bind, Except.bind, eq_comm]
    | some threadStart => simp [LayoutError.orOverflow, bind, Except.bind, pure, Except.pure]

/-- A target that is made for a pointer size under options has just these sizes. -/
theorem Target.check_eq_ok {pointerSize : UInt32} {options : LayoutOptions} {target : Target}
    (h : Target.check pointerSize options = .ok target) :
    target.pointerSize = pointerSize ∧ target.largestPrimitive = options.largestPrimitive := by
  unfold Target.check at h
  split at h
  · cases h
    exact ⟨rfl, rfl⟩
  · cases h

/-- A pointer has four or eight bytes, so that the headers themselves cannot overflow. -/
theorem Target.toNat_headers (target : Target) :
    ((6 : UInt32) * target.pointerSize).toNat = 6 * target.pointerSize.toNat ∧
      ((3 : UInt32) * target.pointerSize).toNat = 3 * target.pointerSize.toNat := by
  rcases target.supported.1 with h4 | h8
  · rw [h4]
    decide
  · rw [h8]
    decide

/-- The walk starts behind the reserved bytes of each block. -/
theorem Target.toNat_get_reserved {m : Module} {options : LayoutOptions} {target : Target}
    {start : BlockSizes} (htarget : Target.check m.pointerSize options = .ok target)
    (h : target.reserved m.typeCount = .ok start) (kind : BlockKind) :
    (start.get kind).toNat = m.reservedBytes kind := by
  obtain ⟨hpointer, -⟩ := Target.check_eq_ok htarget
  have hheaders := target.toNat_headers
  unfold Target.reserved Target.nonGcStart? Target.threadNonGcStart? Target.headerPointers
    Target.threadHeaderPointers at h
  rw [hpointer] at h hheaders
  obtain ⟨nonGc, hprocess, h⟩ := bind_eq_ok.1 h
  obtain ⟨threadNonGc, hthread, h⟩ := bind_eq_ok.1 h
  obtain rfl := Except.ok.inj h
  rw [LayoutError.orOverflow_eq_ok, Word.add?_eq_some_iff, hheaders.1] at hprocess
  rw [LayoutError.orOverflow_eq_ok, Word.add?_eq_some_iff, hheaders.2] at hthread
  match kind with
  | .gc => rfl
  | .nonGc => exact hprocess
  | .threadGc => rfl
  | .threadNonGc => exact hthread

end StaticStorage
