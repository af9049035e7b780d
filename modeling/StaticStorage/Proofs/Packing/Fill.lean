import Mathlib.Logic.Function.Basic
import StaticStorage.Proofs.Packing.SlotRules
import StaticStorage.Proofs.Packing.Walk

/-!
# Blocks filled without bound

The walk over a module's statics counts in words, and stops when a word cannot hold a sum. Here the same
walk counts in natural numbers, where every sum exists. As long as the numbers are words, the two walks
agree; the first number that is no word is where the walk in words overflows.

* `alignUp?_eq_some_iff`, `place?_eq_none_iff` — what a word is aligned to, and when there is no place.
* `fill_of_place_eq_ok` — placing a field in words moves the numbers along.
-/

namespace StaticStorage

namespace Slot

/-- The least multiple of the slot's alignment that is not below `n`. -/
def offsetBehind (slot : Slot) (n : ℕ) : ℕ :=
  (n + (slot.alignment.toNat - 1)) / slot.alignment.toNat * slot.alignment.toNat

/-- The end of the slot at its next place behind `n` bytes. -/
def endBehind (slot : Slot) (n : ℕ) : ℕ := slot.offsetBehind n + slot.size.toNat

end Slot

/-! ## Aligning -/

namespace Word

/-- Rounding up adds what the remainder lacks, if there is one. -/
theorem add_sub_one_div_mul {n a : ℕ} (ha : 0 < a) :
    (n + (a - 1)) / a * a = if n % a = 0 then n else n + (a - n % a) := by
  have hdiv := Nat.div_add_mod n a
  have hmod := Nat.mod_lt n ha
  have hquot : n + (a - 1) = a * (n / a) + (n % a + (a - 1)) := by omega
  rw [hquot, Nat.mul_add_div ha]
  split
  · next hzero =>
    have hnone : (n % a + (a - 1)) / a = 0 := Nat.div_eq_of_lt (by omega)
    rw [hnone, Nat.add_zero, Nat.mul_comm]
    omega
  · next hrem =>
    have hone : (n % a + (a - 1)) / a = 1 := by
      rw [Nat.div_eq_iff ha]
      omega
    rw [hone, Nat.add_mul, Nat.one_mul, Nat.mul_comm (n / a)]
    omega

/-- What a word lacks to the next multiple, in numbers. -/
private theorem toNat_sub_mod {n a : UInt32} (ha : 0 < a.toNat) :
    (a - n % a).toNat = a.toNat - n.toNat % a.toNat := by
  have hmod := Nat.mod_lt n.toNat ha
  rw [UInt32.toNat_sub_of_le, UInt32.toNat_mod]
  rw [UInt32.le_iff_toNat_le, UInt32.toNat_mod]
  omega

/-- A word is a multiple when its number is. -/
private theorem mod_eq_zero_iff {n a : UInt32} : n % a = 0 ↔ n.toNat % a.toNat = 0 := by
  rw [← UInt32.toNat_inj, UInt32.toNat_mod, UInt32.toNat_zero]

/-- An aligned word is the aligned number. -/
theorem alignUp?_eq_some_iff {n a c : UInt32} (ha : 0 < a.toNat) :
    alignUp? n a = some c ↔ c.toNat = (n.toNat + (a.toNat - 1)) / a.toNat * a.toNat := by
  unfold alignUp?
  rw [add_sub_one_div_mul ha]
  by_cases hrem : n % a = 0
  · rw [if_pos hrem, if_pos (mod_eq_zero_iff.1 hrem), Option.some.injEq, ← UInt32.toNat_inj]
    exact eq_comm
  · rw [if_neg hrem, if_neg (mt mod_eq_zero_iff.2 hrem), add?_eq_some_iff, toNat_sub_mod ha]

/-- A word cannot be aligned when the aligned number is no word. -/
theorem alignUp?_eq_none_iff {n a : UInt32} (ha : 0 < a.toNat) :
    alignUp? n a = none ↔ UInt32.size ≤ (n.toNat + (a.toNat - 1)) / a.toNat * a.toNat := by
  unfold alignUp?
  rw [add_sub_one_div_mul ha]
  by_cases hrem : n % a = 0
  · rw [if_pos hrem, if_pos (mod_eq_zero_iff.1 hrem)]
    exact iff_of_false (Option.some_ne_none n) (Nat.not_le.2 n.toNat_lt_size)
  · rw [if_neg hrem, if_neg (mt mod_eq_zero_iff.2 hrem), add?_eq_none_iff, toNat_sub_mod ha]

end Word

/-! ## One step of the walk -/

/-- No field asks for a slot that is aligned to zero. -/
theorem Module.AsksFor.alignment_pos {m : Module} {target : Target} {f : FieldId} {slot : Slot}
    (h : m.AsksFor target f slot) : 0 < slot.alignment.toNat := by
  obtain ⟨signature, -, hslot⟩ := h
  exact (Module.slotFor_eq_ok_iff.1 hslot).alignment_pos

/-- The bytes in use in each block, as numbers. -/
def BlockSizes.fill (sizes : BlockSizes) : BlockKind → ℕ := fun kind => (sizes.get kind).toNat

/-- There is no place for a slot just when no word can hold its end. -/
theorem BlockSizes.place?_eq_none_iff {sizes : BlockSizes} {demand : Demand}
    (ha : 0 < demand.slot.alignment.toNat) :
    sizes.place? demand = none ↔
      UInt32.size ≤ demand.slot.endBehind (sizes.fill demand.block) := by
  have hplace : sizes.place? demand =
      (Word.alignUp? (sizes.get demand.block) demand.slot.alignment).bind fun offset =>
        (Word.add? offset demand.slot.size).bind fun size =>
          some (offset, sizes.set demand.block size) := rfl
  rw [hplace]
  unfold Slot.endBehind Slot.offsetBehind BlockSizes.fill
  cases halign : Word.alignUp? (sizes.get demand.block) demand.slot.alignment with
  | none =>
    have hle := (Word.alignUp?_eq_none_iff ha).1 halign
    exact iff_of_true rfl (Nat.le_add_right_of_le hle)
  | some offset =>
    rw [← (Word.alignUp?_eq_some_iff ha).1 halign, ← Word.add?_eq_none_iff, Option.bind_some,
      Option.bind_eq_none_iff]
    constructor
    · intro hbind
      exact Option.eq_none_iff_forall_ne_some.2 fun size hsize =>
        Option.some_ne_none _ (hbind size hsize)
    · intro hnone size hsize
      exact absurd (hsize.symm.trans hnone) (Option.some_ne_none size)

namespace Module

variable {m : Module} {target : Target}

/-- The bytes in use with one field more: a field that demands a slot ends where the slot ends, and a field
that demands none takes no room. -/
def fillWith (m : Module) (target : Target) (fill : BlockKind → ℕ) (f : FieldId) : BlockKind → ℕ :=
  match m.demand target f with
  | .ok demand => Function.update fill demand.block (demand.slot.endBehind (fill demand.block))
  | .error _ => fill

/-- A field that demands a slot fills its block up to the end of the slot. -/
theorem fillWith_of_demand {fill : BlockKind → ℕ} {f : FieldId} {demand : Demand}
    (h : m.demand target f = .ok demand) :
    m.fillWith target fill f =
      Function.update fill demand.block (demand.slot.endBehind (fill demand.block)) := by
  unfold fillWith
  rw [h]

/-- The bytes in use behind fields that are placed one after the other. -/
def fillAfter (m : Module) (target : Target) (fill : BlockKind → ℕ)
    (fields : List (TypeId × FieldId)) : BlockKind → ℕ :=
  fields.foldl (fun fill p => m.fillWith target fill p.2) fill

/-- A field that is placed in words is placed so in numbers. -/
theorem fill_of_place_eq_ok {f : FieldId} {sizes sizes' : BlockSizes} {o : FieldOffset}
    (h : m.place target f sizes = .ok (o, sizes')) :
    ∃ slot, m.demand target f = .ok ⟨o.block, slot⟩ ∧
      o.offset.toNat = slot.offsetBehind (sizes.fill o.block) ∧
      sizes'.fill = m.fillWith target sizes.fill f := by
  obtain ⟨slot, size, hdemand, -, halign, hsize, rfl⟩ := place_eq_ok h
  have hpos : 0 < slot.alignment.toNat := (demand_eq_ok_iff.1 hdemand).1.alignment_pos
  have hoffset : o.offset.toNat = slot.offsetBehind (sizes.fill o.block) :=
    (Word.alignUp?_eq_some_iff hpos).1 halign
  have hend : size.toNat = slot.endBehind (sizes.fill o.block) := by
    rw [Slot.endBehind, ← hoffset]
    exact Word.add?_eq_some_iff.1 hsize
  refine ⟨slot, hdemand, hoffset, funext fun kind => ?_⟩
  rw [fillWith_of_demand hdemand, ← hend, BlockSizes.fill, BlockTable.get_set]
  by_cases hkind : kind = o.block
  · subst hkind
    rw [if_pos rfl, Function.update_self]
  · rw [if_neg hkind, Function.update_of_ne hkind]
    rfl

end Module

end StaticStorage
