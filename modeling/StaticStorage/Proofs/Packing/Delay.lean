import Mathlib.Data.List.Forall2
import StaticStorage.Proofs.Module.Additions
import StaticStorage.Proofs.Packing.Alignment
import StaticStorage.Proofs.Packing.Fill

/-!
# The cost of one type more

Every type of a module costs a byte at the start of the two raw blocks, even if it has no statics. The byte
is passed on from field to field, since each of them is rounded up to its own alignment; but as all
alignments divide one power of two, what is passed on never adds up to more than that.

* `Slot.within_offsetBehind` — rounding up keeps two numbers within a multiple of the alignment.
* `AsksFor.alignment_dvd_widest` — that multiple, for all slots at once.
* `delayedBy_of_place`, `delayedBy_of_placeStatics` — two walks over the same fields stay so close.
* `delayedBy_build` — what one type more makes of a layout.
-/

namespace StaticStorage

/-! ## Numbers that are close -/

/-- The second number is not below the first, and exceeds it by so much at most. -/
def Within (most n n' : ℕ) : Prop := n ≤ n' ∧ n' ≤ n + most

theorem within_zero_iff {n n' : ℕ} : Within 0 n n' ↔ n' = n := by
  unfold Within
  omega

namespace Slot

variable {slot : Slot} {most n n' : ℕ}

/-- Rounding up keeps the order. -/
theorem offsetBehind_mono (h : n ≤ n') : slot.offsetBehind n ≤ slot.offsetBehind n' :=
  Nat.mul_le_mul_right _ (Nat.div_le_div_right (Nat.add_le_add_right h _))

/-- Rounding up may be done before a multiple of the alignment is added or after. -/
theorem offsetBehind_add (hpos : 0 < slot.alignment.toNat) (hmost : slot.alignment.toNat ∣ most) :
    slot.offsetBehind (n + most) = slot.offsetBehind n + most := by
  obtain ⟨count, rfl⟩ := hmost
  unfold offsetBehind
  rw [Nat.add_right_comm, Nat.add_mul_div_left _ _ hpos, Nat.add_mul, Nat.mul_comm count]

/-- Rounding up keeps two numbers within a multiple of the alignment. -/
theorem within_offsetBehind (hpos : 0 < slot.alignment.toNat) (hmost : slot.alignment.toNat ∣ most)
    (h : Within most n n') : Within most (slot.offsetBehind n) (slot.offsetBehind n') := by
  refine ⟨offsetBehind_mono h.1, ?_⟩
  rw [← offsetBehind_add hpos hmost]
  exact offsetBehind_mono h.2

/-- Behind the slot the two numbers are as close as at its start. -/
theorem within_endBehind (hpos : 0 < slot.alignment.toNat) (hmost : slot.alignment.toNat ∣ most)
    (h : Within most n n') : Within most (slot.endBehind n) (slot.endBehind n') := by
  obtain ⟨hle, hmost⟩ := within_offsetBehind hpos hmost h
  unfold endBehind
  exact ⟨by omega, by omega⟩

end Slot

/-! ## The widest alignment -/

/-- The widest alignment that a slot can ask for, in bytes. -/
def Target.widest (target : Target) : ℕ := max 8 target.largestPrimitive.toNat

/-- How much further from the start of a block a field may come to lie: not at all where references live. -/
def BlockKind.leeway (most : ℕ) (kind : BlockKind) : ℕ := if kind.isGc then 0 else most

/-- The widest alignment is a power of two, as the largest primitive is. -/
theorem Target.isPowerOfTwo_widest (target : Target) : target.widest.isPowerOfTwo := by
  obtain ⟨n, hn⟩ := target.supported.2.1
  refine ⟨max 3 n, ?_⟩
  rw [Target.widest, hn, (pow_right_mono₀ (by decide : 1 ≤ 2)).map_max]
  rfl

/-- Every slot asks for an alignment that divides the widest one. -/
theorem Module.AsksFor.alignment_dvd_widest {m : Module} {target : Target} {f : FieldId} {slot : Slot}
    (h : m.AsksFor target f slot) : slot.alignment.toNat ∣ target.widest := by
  obtain ⟨s, -, hslot⟩ := h
  have hrule := slotFor_eq_ok_iff.1 hslot
  obtain ⟨⟨k, hk⟩, hle⟩ := hrule.size_isPowerOfTwo_and_le
  obtain ⟨n, hn⟩ := target.isPowerOfTwo_widest
  change slot.size.toNat ≤ target.widest at hle
  rw [hk, hn, Nat.pow_le_pow_iff_right (by decide)] at hle
  rw [hrule.alignment_eq_size, hk, hn]
  exact Nat.pow_dvd_pow 2 hle

/-! ## Delayed places -/

/-- The other place is that of the same field in the same block, and no nearer to the start of the block. It is
further away by so many bytes at most, and not at all among references. -/
structure FieldOffset.DelayedBy (most : ℕ) (o o' : FieldOffset) : Prop where
  field_eq : o'.field = o.field
  block_eq : o'.block = o.block
  within : Within (o.block.leeway most) o.offset.toNat o'.offset.toNat

/-- The other layout has the same fields under the same types, in the same order and in the same blocks. What
the collector scans is the same; elsewhere no offset and no size is smaller, or larger by more than so many
bytes. -/
structure Layout.DelayedBy (most : ℕ) (l l' : Layout) : Prop where
  places : List.Forall₂ (fun p p' => p'.1 = p.1 ∧ p.2.DelayedBy most p'.2) l.placements l'.placements
  sizes : ∀ kind, Within (kind.leeway most) (l.block kind).size.toNat (l'.block kind).size.toNat
  gc : ∀ kind, kind.isGc = true → l'.block kind = l.block kind ∧ l'.inBlock kind = l.inBlock kind

/-- Among references nothing is delayed. -/
theorem FieldOffset.DelayedBy.eq_of_isGc {most : ℕ} {o o' : FieldOffset} (h : o.DelayedBy most o')
    (hgc : o.block.isGc = true) : o' = o := by
  obtain ⟨hfield, hblock, hwithin⟩ := h
  rw [BlockKind.leeway, if_pos hgc, within_zero_iff, UInt32.toNat_inj] at hwithin
  cases o
  cases o'
  cases hfield
  cases hblock
  cases hwithin
  rfl

/-- In a block of the collector, delayed places are the same. -/
theorem filter_eq_of_delayedBy {most : ℕ} {places places' : List (TypeId × FieldOffset)} {kind : BlockKind}
    (h : List.Forall₂ (fun p p' => p'.1 = p.1 ∧ p.2.DelayedBy most p'.2) places places')
    (hkind : kind.isGc = true) :
    places'.filter (·.2.block = kind) = places.filter (·.2.block = kind) := by
  induction h with
  | nil => rfl
  | @cons p p' _ _ hfirst _ ih =>
    obtain ⟨htype, hplace⟩ := hfirst
    rw [List.filter_cons, List.filter_cons, ih, hplace.block_eq]
    by_cases hblock : p.2.block = kind
    · obtain rfl : p' = p := Prod.ext htype (hplace.eq_of_isGc (hblock ▸ hkind))
      rfl
    · rw [if_neg (by simpa using hblock), if_neg (by simpa using hblock)]

namespace Module

variable {m m' : Module} {target : Target} {options : LayoutOptions}

/-! ## Two walks -/

/-- A field that demands the same is placed alike in blocks that are filled alike, up to what all alignments
divide; and so the blocks stay filled alike. -/
theorem delayedBy_of_place {f : FieldId} {sizes₁ sizes₂ sizes₁' sizes₂' : BlockSizes} {o₁ o₂ : FieldOffset}
    (hid : m'.id = m.id) (hdemand : m'.demand target f = m.demand target f)
    (hfill : ∀ kind, Within (kind.leeway target.widest) (sizes₁.fill kind) (sizes₂.fill kind))
    (h₁ : m.place target f sizes₁ = .ok (o₁, sizes₁')) (h₂ : m'.place target f sizes₂ = .ok (o₂, sizes₂')) :
    o₁.DelayedBy target.widest o₂ ∧
      ∀ kind, Within (kind.leeway target.widest) (sizes₁'.fill kind) (sizes₂'.fill kind) := by
  obtain ⟨slot, hslot, hoffset₁, hfill₁⟩ := fill_of_place_eq_ok h₁
  obtain ⟨slot₂, hslot₂, hoffset₂, hfill₂⟩ := fill_of_place_eq_ok h₂
  obtain ⟨-, -, -, hfield₁, -⟩ := place_eq_ok h₁
  obtain ⟨-, -, -, hfield₂, -⟩ := place_eq_ok h₂
  -- both walks meet one demand
  rw [hdemand, hslot, Except.ok.injEq, Demand.mk.injEq] at hslot₂
  obtain ⟨hblock, rfl⟩ := hslot₂
  have hasks := (demand_eq_ok_iff.1 hslot).1
  have hmost : slot.alignment.toNat ∣ o₁.block.leeway target.widest := by
    unfold BlockKind.leeway
    split
    · exact Nat.dvd_zero _
    · exact hasks.alignment_dvd_widest
  constructor
  · refine ⟨?_, hblock.symm, ?_⟩
    · rw [hfield₁, hfield₂, qualify, qualify, hid]
    · rw [hoffset₁, hoffset₂, ← hblock]
      exact Slot.within_offsetBehind hasks.alignment_pos hmost (hfill o₁.block)
  · intro kind
    rw [hfill₁, hfill₂, fillWith_of_demand hslot, fillWith_of_demand (hdemand.trans hslot)]
    by_cases hkind : kind = o₁.block
    · rw [hkind, Function.update_self, Function.update_self]
      exact Slot.within_endBehind hasks.alignment_pos hmost (hfill o₁.block)
    · rw [Function.update_of_ne hkind, Function.update_of_ne hkind]
      exact hfill kind

/-- Fields that demand the same are placed alike, one after the other, in blocks that are filled alike. -/
theorem delayedBy_of_placeStatics {fields : List (TypeId × FieldId)} {sizes₁ sizes₂ sizes₁' sizes₂' : BlockSizes}
    {placed₁ placed₂ : List (TypeId × FieldOffset)} (hid : m'.id = m.id)
    (hdemand : ∀ p ∈ fields, m'.demand target p.2 = m.demand target p.2)
    (hfill : ∀ kind, Within (kind.leeway target.widest) (sizes₁.fill kind) (sizes₂.fill kind))
    (h₁ : m.placeStatics target fields sizes₁ = .ok (placed₁, sizes₁'))
    (h₂ : m'.placeStatics target fields sizes₂ = .ok (placed₂, sizes₂')) :
    List.Forall₂ (fun p p' => p'.1 = p.1 ∧ p.2.DelayedBy target.widest p'.2) placed₁ placed₂ ∧
      ∀ kind, Within (kind.leeway target.widest) (sizes₁'.fill kind) (sizes₂'.fill kind) := by
  induction fields generalizing sizes₁ sizes₂ placed₁ placed₂ with
  | nil =>
    cases h₁
    cases h₂
    exact ⟨.nil, hfill⟩
  | cons first fields ih =>
    obtain ⟨t, f⟩ := first
    obtain ⟨o₁, next₁, rest₁, hplace₁, hrest₁, rfl⟩ := placeStatics_cons_eq_ok h₁
    obtain ⟨o₂, next₂, rest₂, hplace₂, hrest₂, rfl⟩ := placeStatics_cons_eq_ok h₂
    obtain ⟨hplace, hnext⟩ :=
      delayedBy_of_place hid (hdemand (t, f) List.mem_cons_self) hfill hplace₁ hplace₂
    obtain ⟨hrest, hlast⟩ := ih (fun p hp => hdemand p (List.mem_cons_of_mem _ hp)) hnext hrest₁ hrest₂
    exact ⟨.cons ⟨rfl, hplace⟩ hrest, hlast⟩

/-- Two modules whose statics are the same and demand the same have layouts as close as their reserved bytes. -/
theorem delayedBy_of_statics_eq {l l' : Layout} (hid : m'.id = m.id)
    (hpointer : m'.pointerSize = m.pointerSize) (hstatics : m'.statics = m.statics)
    (hdemand : ∀ target, ∀ p ∈ m.statics, m'.demand target p.2 = m.demand target p.2)
    (hreserved : ∀ kind, Within (kind.leeway 8) (m.reservedBytes kind) (m'.reservedBytes kind))
    (hl : m.layout options = .ok l) (hl' : m'.layout options = .ok l') :
    l.DelayedBy (max 8 options.largestPrimitive.toNat) l' := by
  obtain ⟨target, start, sizes, htarget, hstart, hwalk, -, hblocks⟩ := layout_eq_ok hl
  have htarget' : Target.check m'.pointerSize options = .ok target := by rw [hpointer, htarget]
  obtain ⟨start', sizes', hstart', hwalk', hblocks'⟩ := walk_of_layout htarget' hl'
  have hfill : ∀ kind, Within (kind.leeway target.widest) (BlockSizes.fill start kind)
      (BlockSizes.fill start' kind) := by
    intro kind
    obtain ⟨hle, hmost⟩ := hreserved kind
    unfold BlockSizes.fill
    rw [Target.toNat_get_reserved htarget hstart, Target.toNat_get_reserved htarget' hstart']
    refine ⟨hle, Nat.le_trans hmost (Nat.add_le_add_left ?_ _)⟩
    unfold BlockKind.leeway
    split
    · exact Nat.le_refl 0
    · exact Nat.le_max_left 8 _
  rw [hstatics] at hwalk'
  obtain ⟨hplaces, hsizes⟩ := delayedBy_of_placeStatics hid (hdemand target) hfill hwalk hwalk'
  have hwidest : target.widest = max 8 options.largestPrimitive.toNat := by
    rw [Target.widest, (Target.check_eq_ok htarget).2]
  rw [hwidest] at hplaces hsizes
  have hextents : ∀ kind, Within (kind.leeway (max 8 options.largestPrimitive.toNat))
      (l.block kind).size.toNat (l'.block kind).size.toNat := by
    intro kind
    rw [hblocks, hblocks']
    exact hsizes kind
  refine ⟨hplaces, hextents, fun kind hkind => ⟨?_, filter_eq_of_delayedBy hplaces hkind⟩⟩
  have hsize := hextents kind
  rw [BlockKind.leeway, if_pos hkind, within_zero_iff, UInt32.toNat_inj] at hsize
  rw [hblocks, hblocks'] at hsize ⊢
  exact congrArg (BlockExtent.mk · target.largestPrimitive) hsize

/-! ## One type more -/

/-- The handle in the signature of a field, if the signature can be decoded and has one. -/
def valueTypeOf? (m : Module) (f : FieldId) : Option TypeHandle :=
  match FieldSignature.decode (m.signatureOf f) with
  | .ok s => s.valueType
  | .error _ => none

theorem valueTypeOf?_of_decode {f : FieldId} {s : FieldSignature}
    (h : FieldSignature.decode (m.signatureOf f) = .ok s) : m.valueTypeOf? f = s.valueType := by
  rw [valueTypeOf?, h]

section Grown

variable (hgrown : m'.types.size = m.types.size + 1) (hsize : m'.types.size < UInt32.size)
include hgrown hsize

theorem toNat_typeCount_of_grown :
    m.typeCount.toNat = m.types.size ∧ m'.typeCount.toNat = m.types.size + 1 := by
  rw [typeCount, typeCount, Word.toNat_clamp, Word.toNat_clamp]
  omega

/-- The new type is none of the old ones. -/
theorem ne_of_le_typeCount {t : TypeId} (h : t.row ≤ m.typeCount) :
    t ≠ ⟨Word.clamp (m.types.size + 1)⟩ := by
  rintro rfl
  rw [UInt32.le_iff_toNat_le, toNat_clamp_succ (hgrown ▸ hsize),
    (toNat_typeCount_of_grown hgrown hsize).1] at h
  omega

/-- Handles that do not name the new type name what they did without it. -/
theorem resolveType?_of_ne {handle : TypeHandle}
    (hne : handle ≠ .typeDef ⟨Word.clamp (m.types.size + 1)⟩) :
    m'.resolveType? handle = m.resolveType? handle := by
  obtain ⟨hcount, hcount'⟩ := toNat_typeCount_of_grown hgrown hsize
  have hrow := toNat_clamp_succ (hgrown ▸ hsize)
  ext t
  rw [resolveType?_eq_some_iff, resolveType?_eq_some_iff]
  refine and_congr_right fun htype => and_congr_right fun _ => ?_
  have hother : t.row.toNat ≠ m.types.size + 1 := by
    intro hlast
    rw [← hrow, UInt32.toNat_inj] at hlast
    exact hne (htype.trans (congrArg (fun row => TypeHandle.typeDef ⟨row⟩) hlast))
  rw [UInt32.le_iff_toNat_le, UInt32.le_iff_toNat_le, hcount, hcount']
  omega

/-- One type more reserves one byte more in the raw blocks. -/
theorem within_reservedBytes (hpointer : m'.pointerSize = m.pointerSize) (kind : BlockKind) :
    Within (kind.leeway 8) (m.reservedBytes kind) (m'.reservedBytes kind) := by
  obtain ⟨hcount, hcount'⟩ := toNat_typeCount_of_grown hgrown hsize
  match kind with
  | .gc | .threadGc => exact within_zero_iff.2 rfl
  | .nonGc | .threadNonGc =>
    simp only [Within, BlockKind.leeway, BlockKind.isGc, reservedBytes, hpointer, hcount, hcount',
      Bool.false_eq_true, if_false]
    omega

/-- A new type without statics adds nothing to what the walk visits. -/
theorem statics_eq_of_idle (hm : m.Numbered)
    (h : m.AgreesOutside ⟨Word.clamp (m.types.size + 1)⟩ m.fields.size m')
    (hidle : m'.visits ⟨Word.clamp (m.types.size + 1)⟩ = []) : m'.statics = m.statics := by
  have hsame : m.typeIds.flatMap m'.visits = m.typeIds.flatMap m.visits :=
    List.flatMap_congr fun t ht =>
      h.visits_eq hm (ne_of_le_typeCount hgrown hsize (mem_typeIds.1 ht).2)
  rw [statics_eq_flatMap, statics_eq_flatMap, typeIds_eq_concat hgrown hsize, List.flatMap_append,
    List.flatMap_singleton, hidle, List.append_nil, hsame]

/-- A signature that does not name the new type gets the slot that it got without it. -/
theorem slotFor_eq_of_ne {rows : ℕ} (h : m.AgreesOutside ⟨Word.clamp (m.types.size + 1)⟩ rows m')
    {s : FieldSignature} (hs : s.valueType ≠ some (.typeDef ⟨Word.clamp (m.types.size + 1)⟩))
    (target : Target) : m'.slotFor target s = m.slotFor target s := by
  have hresolve : s.valueType.bind m'.resolveType? = s.valueType.bind m.resolveType? := by
    cases hhandle : s.valueType with
    | none => rfl
    | some handle => exact resolveType?_of_ne hgrown hsize fun heq => hs (hhandle.trans (congrArg some heq))
  refine slotFor_congr_of_resolveType? hresolve (fun t ht => ?_) target
  obtain ⟨handle, -, hlocal⟩ := Option.bind_eq_some_iff.1 ht
  have hne := ne_of_le_typeCount hgrown hsize (resolveType?_eq_some_iff.1 hlocal).2.2
  have hresolve' : m'.resolveType? (.typeDef t) = m.resolveType? (.typeDef t) :=
    resolveType?_of_ne hgrown hsize fun heq => hne (TypeHandle.typeDef.inj heq)
  unfold isByRefLike
  rw [hresolve']
  cases hself : m.resolveType? (.typeDef t) with
  | none => rfl
  | some t' =>
    obtain rfl := TypeHandle.typeDef.inj (resolveType?_eq_some_iff.1 hself).1
    dsimp only
    rw [typeHasAttribute, typeHasAttribute, h.type?_eq t hne]

/-- With one type more that has no statics, all others stay and demand what they did. -/
theorem delayedBy_of_grown {l l' : Layout} (hm : m.Numbered)
    (h : m.AgreesOutside ⟨Word.clamp (m.types.size + 1)⟩ m.fields.size m')
    (hidle : m'.visits ⟨Word.clamp (m.types.size + 1)⟩ = [])
    (hunnamed : ∀ t f, m.Eligible t f →
      m.valueTypeOf? f ≠ some (.typeDef ⟨Word.clamp (m.types.size + 1)⟩))
    (hl : m.layout options = .ok l) (hl' : m'.layout options = .ok l') :
    l.DelayedBy (max 8 options.largestPrimitive.toNat) l' := by
  have hstatics := statics_eq_of_idle hgrown hsize hm h hidle
  have hdemand : ∀ target, ∀ p ∈ m.statics, m'.demand target p.2 = m.demand target p.2 := by
    rintro target ⟨t, f⟩ hp
    have hf := mem_statics.1 hp
    refine h.demand_eq (hm.row_le_size hf.mem) fun s hs => slotFor_eq_of_ne hgrown hsize h ?_ target
    rw [← valueTypeOf?_of_decode hs]
    exact hunnamed t f hf
  exact delayedBy_of_statics_eq h.id_eq h.pointerSize_eq hstatics hdemand
    (within_reservedBytes hgrown hsize h.pointerSize_eq) hl hl'

end Grown

/-- One type more, which is generic or has no statics and is named by no static of another type, changes a
layout in no other way than that both raw blocks start a byte later: it has the same fields in the same blocks
and in the same order, what the collector scans is the same, and in the raw blocks no offset and no size is
smaller, or larger by more than the widest alignment. -/
theorem delayedBy_build {id : ModuleId} {pointerSize : UInt32} {history more : List Declaration}
    {d : Declaration} {t : TypeId} {l l' : Layout}
    (hd : (build id pointerSize history).declaredRow d = .type t)
    (hmore : ∀ d' ∈ more, d'.AddsTo t (build id pointerSize history).fields.size)
    (htypes : (build id pointerSize (history ++ d :: more)).types.size < UInt32.size)
    (hfields : (build id pointerSize (history ++ d :: more)).fields.size < UInt32.size)
    (hidle : (build id pointerSize (history ++ d :: more)).isGeneric t = true ∨
      (build id pointerSize (history ++ d :: more)).staticsOf t = [])
    (hunnamed : ∀ t' f, (build id pointerSize history).Eligible t' f →
      (build id pointerSize history).valueTypeOf? f ≠ some (.typeDef t))
    (hl : (build id pointerSize history).layout options = .ok l)
    (hl' : (build id pointerSize (history ++ d :: more)).layout options = .ok l') :
    l.DelayedBy (max 8 options.largestPrimitive.toNat) l' := by
  have hm : (build id pointerSize history).Numbered := by
    rw [build_append] at hfields
    exact numbered_build (Nat.lt_of_le_of_lt (size_le_declareAll _ _).2 hfields)
  have hlater : build id pointerSize (history ++ d :: more) =
      ((build id pointerSize history).declare d).declareAll more := build_append _ _ _ _
  rw [hlater] at htypes hfields hidle hl'
  have hfirst := Nat.lt_of_le_of_lt (size_le_declareAll _ more).1 htypes
  obtain ⟨rfl, hgrown, hsame, hnew⟩ := agreesOutside_declare_of_declaredRow hd hfirst
    (build id pointerSize history).fields.size
  have hadded := agreesOutside_declareAll hmore (Nat.le_of_eq hsame.symm) hfields
  rw [← size_types_declareAll_of_addsTo hmore] at hgrown
  refine delayedBy_of_grown hgrown htypes hm (hnew.trans hadded) ?_ hunnamed hl hl'
  unfold visits
  rcases hidle with hgeneric | hnone
  · exact if_pos hgeneric
  · rw [hnone, List.map_nil, ite_self]

end Module

/-- Four types, which fill the start of a thread's raw block up to a multiple of eight bytes. -/
def evenHistory : List Declaration := [
  .type ⟨"App", "Main"⟩, .type ⟨"App", "Counters"⟩, .type ⟨"App", "Node"⟩, .type ⟨"App", "Limits"⟩,
  .field ⟨2⟩ "total" .static [0x06, 0x0A],
  .fieldAttribute ⟨1⟩ Module.threadStaticMarker,
  .field ⟨1⟩ "ready" .static [0x06, 0x02],
  .field ⟨1⟩ "name" .static [0x06, 0x0E]]

/-- A fifth type, which is generic, so that its field is laid out with its instances. -/
def fifthType : Declaration := .genericType ⟨"App", "Cache"⟩ 1

/-- What is declared of the fifth type. -/
def fifthTypeMembers : List Declaration := [
  .field ⟨5⟩ "entries" .static [0x06, 0x1C],
  .fieldAttribute ⟨4⟩ Module.threadStaticMarker,
  .typeAttribute ⟨5⟩ Module.byRefLikeMarker]

/-- The layout of the four types. -/
def evenLayout : Layout where
  home := ⟨1⟩
  blocks := ⟨⟨4, 8⟩, ⟨29, 8⟩, ⟨0, 8⟩, ⟨24, 8⟩⟩
  types := ⟨[(1, [⟨⟨⟨1⟩, ⟨2⟩⟩, .nonGc, 28⟩, ⟨⟨⟨1⟩, ⟨3⟩⟩, .gc, 0⟩]), (2, [⟨⟨⟨1⟩, ⟨1⟩⟩, .threadNonGc, 16⟩])],
    by decide⟩

/-- The layout of the five types. For the one byte more, a scalar of eight bytes lies eight bytes further. -/
def oddLayout : Layout where
  home := ⟨1⟩
  blocks := ⟨⟨4, 8⟩, ⟨30, 8⟩, ⟨0, 8⟩, ⟨32, 8⟩⟩
  types := ⟨[(1, [⟨⟨⟨1⟩, ⟨2⟩⟩, .nonGc, 29⟩, ⟨⟨⟨1⟩, ⟨3⟩⟩, .gc, 0⟩]), (2, [⟨⟨⟨1⟩, ⟨1⟩⟩, .threadNonGc, 24⟩])],
    by decide⟩

theorem layout_evenHistory : (Module.build ⟨1⟩ 4 evenHistory).layout ⟨8⟩ = .ok evenLayout := by
  decide +kernel

theorem layout_evenHistory_fifthType :
    (Module.build ⟨1⟩ 4 (evenHistory ++ fifthType :: fifthTypeMembers)).layout ⟨8⟩ = .ok oddLayout := by
  decide +kernel

theorem addsTo_fifthTypeMembers :
    ∀ d ∈ fifthTypeMembers, d.AddsTo ⟨5⟩ (Module.build ⟨1⟩ 4 evenHistory).fields.size := by
  have hrows : (Module.build ⟨1⟩ 4 evenHistory).fields.size = 3 := by decide
  rw [hrows]
  simp only [fifthTypeMembers, List.forall_mem_cons]
  exact ⟨.ofField (.field _ _ _), .ofField (.fieldAttribute (by decide) _), .typeAttribute _, nofun⟩

theorem valueTypeOf?_evenHistory (t : TypeId) (f : FieldId)
    (h : (Module.build ⟨1⟩ 4 evenHistory).Eligible t f) :
    (Module.build ⟨1⟩ 4 evenHistory).valueTypeOf? f ≠ some (.typeDef ⟨5⟩) := by
  have hall : ∀ p ∈ (Module.build ⟨1⟩ 4 evenHistory).statics,
      (Module.build ⟨1⟩ 4 evenHistory).valueTypeOf? p.2 ≠ some (.typeDef ⟨5⟩) := by decide +kernel
  exact hall (t, f) (Module.mem_statics.2 h)

theorem Module.delayedBy_build_fifthType :
    (build ⟨1⟩ 4 evenHistory).declaredRow fifthType = .type ⟨5⟩ ∧
      (∀ d ∈ fifthTypeMembers, d.AddsTo ⟨5⟩ (build ⟨1⟩ 4 evenHistory).fields.size) ∧
      (build ⟨1⟩ 4 (evenHistory ++ fifthType :: fifthTypeMembers)).types.size < UInt32.size ∧
      (build ⟨1⟩ 4 (evenHistory ++ fifthType :: fifthTypeMembers)).fields.size < UInt32.size ∧
      ((build ⟨1⟩ 4 (evenHistory ++ fifthType :: fifthTypeMembers)).isGeneric ⟨5⟩ = true ∨
        (build ⟨1⟩ 4 (evenHistory ++ fifthType :: fifthTypeMembers)).staticsOf ⟨5⟩ = []) ∧
      (∀ t f, (build ⟨1⟩ 4 evenHistory).Eligible t f →
        (build ⟨1⟩ 4 evenHistory).valueTypeOf? f ≠ some (.typeDef ⟨5⟩)) ∧
      (build ⟨1⟩ 4 evenHistory).layout ⟨8⟩ = .ok evenLayout ∧
      (build ⟨1⟩ 4 (evenHistory ++ fifthType :: fifthTypeMembers)).layout ⟨8⟩ = .ok oddLayout ∧
      evenLayout.DelayedBy 8 oddLayout :=
  ⟨by decide, addsTo_fifthTypeMembers, by decide, by decide, .inl (by decide), valueTypeOf?_evenHistory,
    layout_evenHistory, layout_evenHistory_fifthType,
    delayedBy_build (by decide) addsTo_fifthTypeMembers (by decide) (by decide) (.inl (by decide))
      valueTypeOf?_evenHistory layout_evenHistory layout_evenHistory_fifthType⟩

end StaticStorage
