import StaticStorage.Proofs.Module.Additions
import StaticStorage.Proofs.Packing.Blocks

/-!
# Further fields

Fields that are added to the last type are visited behind all others, so that a walk does what it did before
it comes to them. If it fails on its way, it fails as it did; and whatever it has placed by then has its
place for good, since a block only grows.

* `placeStatics_append` — a walk over more fields goes on where the walk over the first ones ends.
* `le_of_placeStatics` — a walk places fields behind the bytes in use, and gives no bytes back.
* `continuedBy_build` — what further fields of the last type make of a layout.
-/

namespace StaticStorage

/-- Whatever is packed lies behind the start. -/
theorem Packed.start_le_of_mem {start stop offset : ℕ} {slots : List Slot} {offsets : List ℕ}
    (h : Packed start slots offsets stop) (hoffset : offset ∈ offsets) : start ≤ offset := by
  obtain ⟨i, hi, rfl⟩ := List.getElem_of_mem hoffset
  exact (h.getElem_bounds (h.length_eq ▸ hi) hi).2.1

/-- The other layout continues this one: it has all of its places, and places new fields of one type behind
the blocks as they were. -/
structure Layout.ContinuedBy (l l' : Layout) (t : TypeId) (rows : ℕ) : Prop where
  /-- The fields that were placed keep their places; the others are new fields of the type, behind the ends
  that the blocks had. -/
  placements_eq : ∃ fresh, l'.placements = l.placements ++ fresh ∧
    ∀ p ∈ fresh, p.1 = t ∧ rows < p.2.field.field.row.toNat ∧ (l.block p.2.block).size ≤ p.2.offset
  /-- Each type is answered what it was answered before, and then the new places. -/
  prefix_offsetsFor : ∀ t', l.offsetsFor t' <+: l'.offsetsFor t'
  /-- No block is smaller. -/
  size_le : ∀ kind, (l.block kind).size ≤ (l'.block kind).size

namespace Module

variable {m m' : Module} {target : Target} {fields more : List (TypeId × FieldId)}
  {sizes sizes' : BlockSizes} {placed : List (TypeId × FieldOffset)} {options : LayoutOptions}

/-! ## Walks -/

/-- A walk over more fields goes on where the walk over the first ones ends. -/
theorem placeStatics_append (fields more : List (TypeId × FieldId)) (sizes : BlockSizes) :
    m.placeStatics target (fields ++ more) sizes =
      (m.placeStatics target fields sizes).bind fun r =>
        (m.placeStatics target more r.2).bind fun r' => .ok (r.1 ++ r'.1, r'.2) := by
  induction fields generalizing sizes with
  | nil =>
    rw [List.nil_append, placeStatics_nil]
    change _ = (m.placeStatics target more sizes).bind _
    cases m.placeStatics target more sizes <;> rfl
  | cons first fields ih =>
    obtain ⟨t, f⟩ := first
    rw [List.cons_append, placeStatics_cons, placeStatics_cons]
    cases m.place target f sizes with
    | error e => rfl
    | ok r =>
      change (m.placeStatics target (fields ++ more) r.2).bind _ =
        ((m.placeStatics target fields r.2).bind _).bind _
      rw [ih]
      cases m.placeStatics target fields r.2 with
      | error e => rfl
      | ok r' =>
        change ((m.placeStatics target more r'.2).bind _).bind _ = (m.placeStatics target more r'.2).bind _
        cases m.placeStatics target more r'.2 <;> rfl

/-- A walk depends on what its fields demand. -/
theorem placeStatics_congr (hid : m'.id = m.id)
    (hdemand : ∀ p ∈ fields, m'.demand target p.2 = m.demand target p.2) (sizes : BlockSizes) :
    m'.placeStatics target fields sizes = m.placeStatics target fields sizes := by
  induction fields generalizing sizes with
  | nil => rfl
  | cons first fields ih =>
    obtain ⟨t, f⟩ := first
    have hplace : m'.place target f sizes = m.place target f sizes := by
      unfold place qualify
      rw [hdemand (t, f) List.mem_cons_self, hid]
    have hrest := ih fun p hp => hdemand p (List.mem_cons_of_mem _ hp)
    rw [placeStatics_cons, placeStatics_cons, hplace]
    simp only [hrest]

/-- A walk places fields behind the bytes in use, and gives no bytes back. -/
theorem le_of_placeStatics (h : m.placeStatics target fields sizes = .ok (placed, sizes')) :
    (∀ kind, sizes.get kind ≤ sizes'.get kind) ∧ ∀ p ∈ placed, sizes.get p.2.block ≤ p.2.offset := by
  constructor
  · intro kind
    exact UInt32.le_iff_toNat_le.2 (placeStatics_packed h kind).start_le_stop
  · intro p hp
    have hblock : p ∈ placed.filter (·.2.block = p.2.block) := List.mem_filter.2 ⟨hp, by simp⟩
    have hoffset : p.2.offset.toNat ∈
        (placed.filter (·.2.block = p.2.block)).map (·.2.offset.toNat) := List.mem_map.2 ⟨p, hblock, rfl⟩
    exact UInt32.le_iff_toNat_le.2 ((placeStatics_packed h p.2.block).start_le_of_mem hoffset)

/-! ## Layouts -/

/-- The other module has more statics behind those of this one, which demand what they did. -/
structure Extends (m m' : Module) (more : List (TypeId × FieldId)) : Prop where
  id_eq : m'.id = m.id
  pointerSize_eq : m'.pointerSize = m.pointerSize
  typeCount_eq : m'.typeCount = m.typeCount
  statics_eq : m'.statics = m.statics ++ more
  demand_eq : ∀ target, ∀ p ∈ m.statics, m'.demand target p.2 = m.demand target p.2

namespace Extends

variable (h : m.Extends m' more)
include h

/-- The walk over more statics does what it did before it comes to them. -/
theorem placeStatics_statics (target : Target) (sizes : BlockSizes) :
    m'.placeStatics target m'.statics sizes =
      (m.placeStatics target m.statics sizes).bind fun r =>
        (m'.placeStatics target more r.2).bind fun r' => .ok (r.1 ++ r'.1, r'.2) := by
  rw [h.statics_eq, placeStatics_append, placeStatics_congr h.id_eq (h.demand_eq target)]

/-- A module with more statics fails as it did without them. -/
theorem layout_eq_error {e : LayoutError} (he : m.layout options = .error e) :
    m'.layout options = .error e := by
  cases htarget : Target.check m.pointerSize options with
  | error e' =>
    rw [layout_of_check_eq_error htarget] at he
    rw [← h.pointerSize_eq] at htarget
    exact (layout_of_check_eq_error htarget).trans he
  | ok target =>
    have htarget' : Target.check m'.pointerSize options = .ok target := by rw [h.pointerSize_eq, htarget]
    cases hstart : target.reserved m.typeCount with
    | error e' =>
      rw [layout_of_reserved_eq_error htarget hstart] at he
      rw [← h.typeCount_eq] at hstart
      exact (layout_of_reserved_eq_error htarget' hstart).trans he
    | ok start =>
      have hstart' : target.reserved m'.typeCount = .ok start := by rw [h.typeCount_eq, hstart]
      rw [layout_of_reserved htarget hstart, bind_eq_error] at he
      rw [layout_of_reserved htarget' hstart', h.placeStatics_statics, bind_eq_error]
      refine he.imp (fun hwalk => ?_) fun ⟨r, _, hok⟩ => nomatch hok
      rw [hwalk]
      rfl

/-- The layout of a module with more statics has all places that there were without them, and places the
further statics behind the ends that the blocks had. -/
theorem exists_placements_eq {l l' : Layout} (hl : m.layout options = .ok l)
    (hl' : m'.layout options = .ok l') :
    ∃ fresh, l'.placements = l.placements ++ fresh ∧
      fresh.map (fun p => (p.1, p.2.field)) = more.map (fun p => (p.1, m'.qualify p.2)) ∧
      (∀ p ∈ fresh, (l.block p.2.block).size ≤ p.2.offset) ∧
      ∀ kind, (l.block kind).size ≤ (l'.block kind).size := by
  obtain ⟨target, start, sizes, htarget, hstart, hwalk, -, hblocks⟩ := layout_eq_ok hl
  rw [← h.pointerSize_eq] at htarget
  obtain ⟨start', sizes', hstart', hwalk', hblocks'⟩ := walk_of_layout htarget hl'
  rw [h.typeCount_eq] at hstart'
  obtain rfl : start = start' := Except.ok.inj (hstart.symm.trans hstart')
  rw [h.placeStatics_statics, hwalk] at hwalk'
  obtain ⟨⟨fresh, sizes''⟩, hmore, hplaced⟩ := bind_eq_ok.1 (show (m'.placeStatics target more sizes >>=
    fun r' => Except.ok (l.placements ++ r'.1, r'.2)) = _ from hwalk')
  obtain ⟨hplacements, rfl⟩ := Prod.mk.inj (Except.ok.inj hplaced)
  obtain ⟨hsizes, hoffsets⟩ := le_of_placeStatics hmore
  refine ⟨fresh, hplacements.symm, map_placeStatics hmore, fun p hp => ?_, fun kind => ?_⟩
  · rw [hblocks]
    exact hoffsets p hp
  · rw [hblocks, hblocks']
    exact hsizes kind

end Extends

/-- The other module continues this one: it fails as this one does, or its layout continues that of this
one. -/
structure ContinuedBy (m m' : Module) (options : LayoutOptions) : Prop where
  error_eq : ∀ e, m.layout options = .error e → m'.layout options = .error e
  layout : ∀ l l', m.layout options = .ok l → m'.layout options = .ok l' →
    l.ContinuedBy l' m.lastType m.fields.size

/-- A module is continued by one with more statics, if these are new fields of the last type. -/
theorem Extends.continuedBy (h : m.Extends m' more)
    (hmore : ∀ p ∈ more, p.1 = m.lastType ∧ m.fields.size < p.2.row.toNat) (options : LayoutOptions) :
    m.ContinuedBy m' options := by
  refine ⟨fun e => h.layout_eq_error, fun l l' hl hl' => ?_⟩
  obtain ⟨fresh, hplacements, hfields, hoffsets, hsizes⟩ := h.exists_placements_eq hl hl'
  refine ⟨⟨fresh, hplacements, fun p hp => ?_⟩, fun t => ?_, hsizes⟩
  · have hfield : (p.1, p.2.field) ∈ more.map fun p => (p.1, m'.qualify p.2) := by
      rw [← hfields]
      exact List.mem_map.2 ⟨p, hp, rfl⟩
    obtain ⟨⟨t, f⟩, hf, heq⟩ := List.mem_map.1 hfield
    obtain ⟨htype, hqualified⟩ := Prod.mk.inj heq
    obtain ⟨hlast, hrow⟩ := hmore (t, f) hf
    rw [← htype, ← hqualified]
    exact ⟨hlast, hrow, hoffsets p hp⟩
  · have hplaces : (l.offsetsFor t).map (Prod.mk t) <+: (l'.offsetsFor t).map (Prod.mk t) := by
      rw [← l.filter_placements, ← l'.filter_placements, hplacements, List.filter_append]
      exact List.prefix_append _ _
    exact (List.prefix_map_iff_of_injective fun a b heq => (Prod.mk.inj heq).2).1 hplaces

/-! ## Declarations -/

/-- Further fields of the last type are further statics, behind all others. -/
theorem exists_extends_declareAll {history : List Declaration} (hm : m.Numbered)
    (hm' : (m.declareAll history).Numbered)
    (hhistory : ∀ d ∈ history, d.AddsField m.lastType m.fields.size)
    (hsize : (m.declareAll history).fields.size < UInt32.size) :
    ∃ more, m.Extends (m.declareAll history) more ∧
      ∀ p ∈ more, p.1 = m.lastType ∧ m.fields.size < p.2.row.toNat := by
  have hadds : ∀ d ∈ history, d.AddsTo m.lastType m.fields.size := fun d hd => .ofField (hhistory d hd)
  have houtside := agreesOutside_declareAll hadds (Nat.le_refl _) hsize
  have htypes : (m.declareAll history).types.size = m.types.size := size_types_declareAll_of_addsTo hadds
  have hcount : (m.declareAll history).typeCount = m.typeCount := by rw [typeCount, typeCount, htypes]
  have hrows := withoutFields_declareAll (m := m) hhistory
  have hslot (target : Target) : (m.declareAll history).slotFor target = m.slotFor target := by
    refine funext (slotFor_congr hcount (fun t _ => ?_) target)
    unfold isByRefLike
    rw [resolveType?_congr hcount]
    cases m.resolveType? (.typeDef t) with
    | none => rfl
    | some t' => exact typeHasAttribute_eq_of_withoutFields (hrows t') _
  obtain ⟨more, hstatics, hmore⟩ := exists_statics_eq_append hm hm' (m.keeps_declareAll history) htypes
    houtside (isGeneric_eq_of_withoutFields (hrows m.lastType))
  refine ⟨more, ⟨houtside.id_eq, houtside.pointerSize_eq, hcount, hstatics, ?_⟩, hmore⟩
  rintro target ⟨t, f⟩ hp
  exact houtside.demand_eq (hm.row_le_size (mem_statics.1 hp).mem) fun s _ => congrFun (hslot target) s

/-- A module that was built by declarations, and is built on by declaring further fields of its last type and
attributes of these fields, keeps its outcome if it has no layout, and otherwise keeps all places of its
layout. -/
theorem continuedBy_build {id : ModuleId} {pointerSize : UInt32} {history more : List Declaration}
    (hmore : ∀ d ∈ more, d.AddsField (build id pointerSize history).lastType
      (build id pointerSize history).fields.size)
    (hsize : (build id pointerSize (history ++ more)).fields.size < UInt32.size) (options : LayoutOptions) :
    (build id pointerSize history).ContinuedBy (build id pointerSize (history ++ more)) options := by
  have hm' := numbered_build hsize
  rw [build_append] at hsize hm' ⊢
  have hm : (build id pointerSize history).Numbered :=
    numbered_build (Nat.lt_of_le_of_lt (size_le_declareAll _ more).2 hsize)
  obtain ⟨_, hextends, hfresh⟩ := exists_extends_declareAll hm hm' hmore hsize
  exact hextends.continuedBy hfresh options

end Module

/-- Two types, of which the last one has a flag, and the other one a field of its own. -/
def startedHistory : List Declaration := [
  .type ⟨"App", "Point"⟩, .type ⟨"App", "Holder"⟩,
  .field ⟨2⟩ "flag" .static [0x06, 0x02],
  .field ⟨1⟩ "origin" .static [0x06, 0x11, 0x04]]

/-- Further fields of the last type: a number, a literal and a reference that every thread has for itself. -/
def furtherFields : List Declaration := [
  .field ⟨2⟩ "total" .static [0x06, 0x0A],
  .field ⟨2⟩ "largest" ⟨0x50⟩ [0x06],
  .field ⟨2⟩ "buffer" .static [0x06, 0x1C],
  .fieldAttribute ⟨5⟩ Module.threadStaticMarker]

theorem addsField_furtherFields :
    ∀ d ∈ furtherFields, d.AddsField (Module.build ⟨1⟩ 8 startedHistory).lastType
      (Module.build ⟨1⟩ 8 startedHistory).fields.size := by
  have hlast : (Module.build ⟨1⟩ 8 startedHistory).lastType = ⟨2⟩ := by decide
  have hrows : (Module.build ⟨1⟩ 8 startedHistory).fields.size = 2 := by decide
  rw [hlast, hrows]
  simp only [furtherFields, List.forall_mem_cons]
  exact ⟨.field _ _ _, .field _ _ _, .field _ _ _, .fieldAttribute (by decide) _, nofun⟩

theorem Module.continuedBy_build_furtherFields :
    (∀ d ∈ furtherFields, d.AddsField (build ⟨1⟩ 8 startedHistory).lastType
        (build ⟨1⟩ 8 startedHistory).fields.size) ∧
      (build ⟨1⟩ 8 (startedHistory ++ furtherFields)).fields.size < UInt32.size ∧
      (build ⟨1⟩ 8 startedHistory).ContinuedBy (build ⟨1⟩ 8 (startedHistory ++ furtherFields)) ⟨8⟩ :=
  ⟨addsField_furtherFields, by decide, continuedBy_build addsField_furtherFields (by decide) ⟨8⟩⟩

end StaticStorage
