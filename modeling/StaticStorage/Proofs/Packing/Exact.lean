import Mathlib.Data.List.Forall2
import StaticStorage.Module.Declaration
import StaticStorage.Proofs.Packing.Outcome

/-!
# Overflow is exact

`exactPlaces` places the fields of a walk in natural numbers: it rounds up and adds as the walk does, but
no sum of its own is ever missing. It stops only at a field that demands no room. A layout overflows just
when one of the numbers that this run comes to is no word, and if there is a layout, then its offsets and
its sizes are the numbers of the run.

* `firstEvent_overflow_iff` — what happens first is an overflow just when the run leaves the words.
* `placeStatics_exact` — a walk that goes through has the places and the sizes of the run.
* `exactOutcome` — both, for the layout of a module.
-/

namespace StaticStorage

/-- A field with the room that it demands, placed without bound. -/
structure ExactPlace where
  type : TypeId
  field : FieldId
  demand : Demand
  /-- The distance from the start of the block, in bytes. -/
  offset : ℕ

namespace ExactPlace

/-- The first byte behind the field. -/
def stop (p : ExactPlace) : ℕ := p.offset + p.demand.slot.size.toNat

/-- The place in a layout is this one: the same field of the same type, in the same block and at the same
distance from its start. -/
structure Matches (p : ExactPlace) (m : Module) (placed : TypeId × FieldOffset) : Prop where
  type_eq : placed.1 = p.type
  field_eq : placed.2.field = m.qualify p.field
  block_eq : placed.2.block = p.demand.block
  offset_eq : placed.2.offset.toNat = p.offset

/-- The bytes in use in each block behind the places of a run. -/
def fillBehind (fill : BlockKind → ℕ) (places : List ExactPlace) : BlockKind → ℕ :=
  places.foldl (fun fill p => Function.update fill p.demand.block p.stop) fill

end ExactPlace

namespace Module

variable {m : Module} {target : Target} {fill : BlockKind → ℕ} {t : TypeId} {f : FieldId}
  {fields : List (TypeId × FieldId)}

/-- The places of fields one after the other, each at the next multiple of its alignment, up to the first
field that demands no room. -/
def exactPlaces (m : Module) (target : Target) :
    (BlockKind → ℕ) → List (TypeId × FieldId) → List ExactPlace
  | _, [] => []
  | fill, (t, f) :: fields =>
    match m.demand target f with
    | .ok demand =>
      let place : ExactPlace := ⟨t, f, demand, demand.slot.offsetBehind (fill demand.block)⟩
      place :: m.exactPlaces target (Function.update fill demand.block place.stop) fields
    | .error _ => []

/-- The run over the statics of a module, from the reserved bytes of its blocks on. -/
def exactRun (m : Module) (target : Target) : List ExactPlace :=
  m.exactPlaces target m.reservedBytes m.statics

/-! ## One field -/

/-- A field with a demand is placed, and the run goes on behind it. -/
theorem exactPlaces_cons_of_demand {demand : Demand} (h : m.demand target f = .ok demand) :
    m.exactPlaces target fill ((t, f) :: fields) =
      ⟨t, f, demand, demand.slot.offsetBehind (fill demand.block)⟩ ::
        m.exactPlaces target (m.fillWith target fill f) fields := by
  rw [exactPlaces, h, fillWith_of_demand h]
  rfl

/-- A field without a demand ends the run. -/
theorem exactPlaces_cons_of_error {e : LayoutError} (h : m.demand target f = .error e) :
    m.exactPlaces target fill ((t, f) :: fields) = [] := by
  rw [exactPlaces, h]

/-! ## The whole run -/

/-- What happens first is an overflow just when the run leaves the words. -/
theorem firstEvent_overflow_iff :
    m.FirstEvent target fill fields .overflow ↔
      ∃ p ∈ m.exactPlaces target fill fields, UInt32.size ≤ p.stop := by
  induction fields generalizing fill with
  | nil =>
    refine iff_of_false ?_ ?_
    · rintro ⟨i, ⟨p, hp, -⟩, -⟩
      simp at hp
    · rintro ⟨p, hp, -⟩
      exact absurd hp List.not_mem_nil
  | cons first fields ih =>
    obtain ⟨t, f⟩ := first
    cases hdemand : m.demand target f with
    | error e =>
      have hevent : m.FieldEvent target fill f e := fieldEvent_iff.2 (.inl hdemand)
      rw [firstEvent_cons_of_fieldEvent hevent, fieldEvent_iff, exactPlaces_cons_of_error hdemand]
      simp [hdemand, hdemand ▸ demand_ne_overflow]
    | ok demand =>
      rw [exactPlaces_cons_of_demand hdemand, List.exists_mem_cons_iff, ← ih]
      by_cases hend : UInt32.size ≤ demand.slot.endBehind (fill demand.block)
      · have hevent : m.FieldEvent target fill f .overflow :=
          fieldEvent_iff.2 (.inr ⟨demand, hdemand, hend, rfl⟩)
        rw [firstEvent_cons_of_fieldEvent hevent]
        exact iff_of_true hevent (.inl hend)
      · have hnone : ∀ e, ¬ m.FieldEvent target fill f e := by
          intro e hevent
          rcases fieldEvent_iff.1 hevent with herror | ⟨demand', hdemand', hend', -⟩
          · cases hdemand.symm.trans herror
          · cases hdemand.symm.trans hdemand'
            exact hend hend'
        rw [firstEvent_cons_of_not hnone]
        exact (or_iff_right hend).symm

/-- A walk that goes through has the places and the sizes of the run. -/
theorem placeStatics_exact {sizes sizes' : BlockSizes} {placed : List (TypeId × FieldOffset)}
    (h : m.placeStatics target fields sizes = .ok (placed, sizes')) :
    List.Forall₂ (fun p placed => p.Matches m placed) (m.exactPlaces target sizes.fill fields) placed ∧
      sizes'.fill = ExactPlace.fillBehind sizes.fill (m.exactPlaces target sizes.fill fields) := by
  induction fields generalizing sizes placed with
  | nil =>
    cases h
    exact ⟨.nil, rfl⟩
  | cons first fields ih =>
    obtain ⟨t, f⟩ := first
    obtain ⟨o, sizes₁, rest, hplace, hrest, rfl⟩ := placeStatics_cons_eq_ok h
    obtain ⟨slot, hdemand, hoffset, hfill⟩ := fill_of_place_eq_ok hplace
    obtain ⟨-, -, -, hfield, -⟩ := place_eq_ok hplace
    obtain ⟨hmatches, hsizes⟩ := ih hrest
    rw [exactPlaces_cons_of_demand hdemand, ← hfill]
    refine ⟨.cons ⟨rfl, hfield, rfl, hoffset⟩ hmatches, hsizes.trans ?_⟩
    rw [hfill, fillWith_of_demand hdemand]
    rfl

/-! ## The layout -/

/-- A layout overflows only where it must, and otherwise says what unbounded numbers say. -/
structure ExactOutcome (m : Module) (target : Target) (options : LayoutOptions) : Prop where
  /-- An overflow means that the start of a block or the end of a slot is no word. -/
  overflow_iff : m.layout options = .error .overflow ↔
    (∃ kind, 2 ^ 32 - 1 < m.reservedBytes kind) ∨ ∃ p ∈ m.exactRun target, 2 ^ 32 - 1 < p.stop
  /-- The offsets of a layout are those of the run. -/
  places : ∀ l, m.layout options = .ok l →
    List.Forall₂ (fun p placed => p.Matches m placed) (m.exactRun target) l.placements
  /-- The sizes of its blocks are those behind the run. -/
  sizes : ∀ l, m.layout options = .ok l → ∀ kind,
    (l.block kind).size.toNat = ExactPlace.fillBehind m.reservedBytes (m.exactRun target) kind
  /-- Nothing is ever rounded up to a multiple of zero. -/
  alignment_pos : ∀ signature slot, m.slotFor target signature = .ok slot → 0 < slot.alignment.toNat

/-- A layout has the places and the sizes of the run. -/
theorem layout_exact {options : LayoutOptions} {l : Layout}
    (htarget : Target.check m.pointerSize options = .ok target) (h : m.layout options = .ok l) :
    List.Forall₂ (fun p placed => p.Matches m placed) (m.exactRun target) l.placements ∧
      ∀ kind, (l.block kind).size.toNat =
        ExactPlace.fillBehind m.reservedBytes (m.exactRun target) kind := by
  obtain ⟨start, sizes, hstart, hwalk, hblocks⟩ := walk_of_layout htarget h
  obtain ⟨hplaces, hsizes⟩ := placeStatics_exact hwalk
  have hfill : BlockSizes.fill start = m.reservedBytes :=
    funext (Target.toNat_get_reserved htarget hstart)
  rw [hfill] at hplaces hsizes
  refine ⟨hplaces, fun kind => ?_⟩
  rw [hblocks kind]
  exact congrFun hsizes kind

/-- For every target that is accepted, overflow and all numbers of a layout are exact. -/
theorem exactOutcome {options : LayoutOptions}
    (htarget : Target.check m.pointerSize options = .ok target) : m.ExactOutcome target options where
  overflow_iff := by
    change _ ↔ m.StartOverflows ∨ ∃ p ∈ m.exactRun target, UInt32.size ≤ p.stop
    by_cases hstarts : m.StartOverflows
    · exact iff_of_true (layout_of_startOverflows htarget hstarts) (.inl hstarts)
    · rw [layout_eq_error_iff htarget hstarts, firstEvent_overflow_iff]
      exact (or_iff_right hstarts).symm
  places l h := (layout_exact htarget h).1
  sizes l h := (layout_exact htarget h).2
  alignment_pos signature slot h := (slotFor_eq_ok_iff.1 h).alignment_pos

end Module

/-- A module whose third field has no room when primitives may have a gigabyte. -/
def crowdedModule : Module :=
  .build ⟨4⟩ 8 [
    .type ⟨"App", "Images"⟩,
    .field ⟨1⟩ "first" .static [0x06, 0x11, 0x05],
    .field ⟨1⟩ "name" .static [0x06, 0x0E],
    .field ⟨1⟩ "second" .static [0x06, 0x11, 0x05],
    .field ⟨1⟩ "third" .static [0x06, 0x11, 0x05]]

/-- The target with primitives of a gigabyte. -/
def gigabyteTarget : Target := ⟨8, 0x40000000, by decide⟩

theorem Module.exactOutcome_crowdedModule :
    Target.check crowdedModule.pointerSize ⟨0x40000000⟩ = .ok gigabyteTarget ∧
      crowdedModule.ExactOutcome gigabyteTarget ⟨0x40000000⟩ :=
  ⟨rfl, exactOutcome rfl⟩

/-- The third gigabyte ends behind the largest word. -/
example : (crowdedModule.exactRun gigabyteTarget).map (·.stop) =
    [0x80000000, 8, 0xC0000000, 0x100000000] := by
  cbv

end StaticStorage
