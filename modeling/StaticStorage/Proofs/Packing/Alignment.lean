import StaticStorage.Proofs.Packing.Routing

/-!
# How far the alignment of a block reaches

Offsets are multiples of what the slots ask for, but an address is an offset behind the base of a block, and
of the base no more is known than the alignment that the block declares. That alignment is the size of the
largest primitive, and it is enough for every slot but one: where the largest primitive is said to have four
bytes, a scalar of eight bytes still asks for eight.

* `SlotRule.alignment_dvd_iff` — when the alignment of a slot divides that of every block.
* `alignedAnywhere_of_layout_iff` — which places of a layout are aligned wherever their blocks lie.
-/

namespace StaticStorage

/-! ## Powers of two -/

namespace Target

variable (target : Target)

/-- Powers of two divide the largest primitive unless they exceed it. -/
theorem two_pow_dvd_largestPrimitive_iff (k : ℕ) :
    2 ^ k ∣ target.largestPrimitive.toNat ↔ 2 ^ k ≤ target.largestPrimitive.toNat := by
  obtain ⟨n, hn⟩ := target.supported.2.1
  rw [hn, Nat.pow_dvd_pow_iff_le_right (by decide), Nat.pow_le_pow_iff_right (by decide)]

/-- The size of a pointer divides that of the largest primitive. -/
theorem pointerSize_dvd_largestPrimitive :
    target.pointerSize.toNat ∣ target.largestPrimitive.toNat := by
  have hle := target.pointerSize_le_largestPrimitive
  obtain ⟨k, hk⟩ := target.isPowerOfTwo_pointerSize
  rw [hk] at hle ⊢
  exact (target.two_pow_dvd_largestPrimitive_iff k).2 hle

theorem four_dvd_largestPrimitive : 4 ∣ target.largestPrimitive.toNat := by
  refine Nat.dvd_trans ?_ target.pointerSize_dvd_largestPrimitive
  rcases target.supported.1 with h4 | h8
  · rw [h4]
    decide
  · rw [h8]
    decide

/-- Eight bytes are too many for the largest primitive only when it has four. -/
theorem eight_dvd_largestPrimitive_iff :
    8 ∣ target.largestPrimitive.toNat ↔ target.largestPrimitive ≠ 4 := by
  obtain ⟨n, hn⟩ := target.supported.2.1
  have hfour : 2 ^ 2 ∣ 2 ^ n := hn ▸ target.four_dvd_largestPrimitive
  have htwo : 2 ≤ n := (Nat.pow_dvd_pow_iff_le_right (by decide)).1 hfour
  have hdvd : 2 ^ 3 ∣ target.largestPrimitive.toNat ↔ 3 ≤ n := by
    rw [hn, Nat.pow_dvd_pow_iff_le_right (by decide)]
  have heq : target.largestPrimitive = 4 ↔ n = 2 := by
    rw [← UInt32.toNat_inj, hn]
    change 2 ^ n = 2 ^ 2 ↔ n = 2
    exact Nat.pow_right_inj (Nat.le_refl 2)
  rw [Ne, heq]
  exact hdvd.trans (by omega)

end Target

/-! ## Slots -/

/-- The alignment of a block is enough for every scalar, but for those of eight bytes where the largest
primitive has four. -/
theorem ElementCategory.scalarSize_dvd_iff {target : Target} {category : ElementCategory} {size : UInt32}
    (h : category.scalarSize? target = some size) :
    size.toNat ∣ target.largestPrimitive.toNat ↔
      ¬ (target.largestPrimitive = 4 ∧ category = .eightByte) := by
  have hfour := target.four_dvd_largestPrimitive
  cases category with
  | oneByte =>
    cases h
    exact iff_of_true (Nat.one_dvd _) (by simp)
  | twoByte =>
    cases h
    exact iff_of_true (Nat.dvd_trans (by decide) hfour) (by simp)
  | fourByte =>
    cases h
    exact iff_of_true hfour (by simp)
  | pointerSized =>
    cases h
    exact iff_of_true target.pointerSize_dvd_largestPrimitive (by simp)
  | eightByte =>
    cases h
    rw [and_iff_left rfl]
    exact target.eight_dvd_largestPrimitive_iff
  | reference | byRef | valueType | unrecognized => cases h

/-- The alignment of a block is enough for every slot, but for that of a scalar of eight bytes where the
largest primitive has four. -/
theorem Module.SlotRule.alignment_dvd_iff {m : Module} {target : Target} {s : FieldSignature} {slot : Slot}
    (h : m.SlotRule target s slot) :
    slot.alignment.toNat ∣ target.largestPrimitive.toNat ↔
      ¬ (target.largestPrimitive = 4 ∧ s.category = .eightByte) := by
  cases h with
  | scalar hsize => exact ElementCategory.scalarSize_dvd_iff hsize
  | reference hcategory => exact iff_of_true target.pointerSize_dvd_largestPrimitive (by simp [hcategory])
  | boxed hcategory => exact iff_of_true target.pointerSize_dvd_largestPrimitive (by simp [hcategory])
  | pessimistic _ hunknown =>
    refine iff_of_true (Nat.dvd_refl _) ?_
    rintro ⟨-, hcategory⟩
    simp [hcategory] at hunknown

/-! ## Addresses -/

/-- Wherever a block with the declared alignment lies, the address of the field is aligned as its slot
asks. -/
def FieldOffset.AlignedAnywhere (o : FieldOffset) (slot : Slot) (extent : BlockExtent) : Prop :=
  ∀ base, extent.alignment.toNat ∣ base → slot.alignment.toNat ∣ base + o.offset.toNat

/-- An offset that is aligned stays so in every block that is aligned for the slot, and in no other. -/
theorem FieldOffset.alignedAnywhere_iff {o : FieldOffset} {slot : Slot} {extent : BlockExtent}
    (h : slot.alignment.toNat ∣ o.offset.toNat) :
    o.AlignedAnywhere slot extent ↔ slot.alignment.toNat ∣ extent.alignment.toNat := by
  constructor
  · intro haligned
    exact (Nat.dvd_add_iff_left h).2 (haligned _ (Nat.dvd_refl _))
  · intro hdvd base hbase
    exact Nat.dvd_add (Nat.dvd_trans hdvd hbase) h

/-! ## The layout -/

namespace Module

variable {m : Module} {target : Target} {options : LayoutOptions} {l : Layout}

/-- Every block of a layout is aligned for the largest primitive. -/
theorem alignment_block (h : m.layout options = .ok l) (kind : BlockKind) :
    (l.block kind).alignment = options.largestPrimitive := by
  obtain ⟨target, htarget⟩ := exists_target_of_layout h
  obtain ⟨start, sizes, -, -, hblocks⟩ := walk_of_layout htarget h
  rw [hblocks kind]
  exact (Target.check_eq_ok htarget).2

/-- The declared alignment of its block covers a field, and the field is aligned wherever that block lies,
just when it is not a scalar of eight bytes under a largest primitive of four. -/
theorem alignedAnywhere_of_layout_iff (h : m.layout options = .ok l) :
    ∃ target, Target.check m.pointerSize options = .ok target ∧
      ∀ p ∈ l.placements, ∃ s slot,
        FieldSignature.decode (m.signatureOf p.2.field.field) = .ok s ∧
        m.slotFor target s = .ok slot ∧
        (slot.alignment.toNat ∣ (l.block p.2.block).alignment.toNat ↔
          ¬ (options.largestPrimitive = 4 ∧ s.category = .eightByte)) ∧
        (p.2.AlignedAnywhere slot (l.block p.2.block) ↔
          ¬ (options.largestPrimitive = 4 ∧ s.category = .eightByte)) := by
  obtain ⟨target, htarget⟩ := exists_target_of_layout h
  refine ⟨target, htarget, fun p hp => ?_⟩
  obtain ⟨s, slot, hplaced⟩ := placed_of_layout htarget h hp
  have hdvd : slot.alignment.toNat ∣ (l.block p.2.block).alignment.toNat ↔
      ¬ (options.largestPrimitive = 4 ∧ s.category = .eightByte) := by
    rw [alignment_block h, ← (Target.check_eq_ok htarget).2]
    exact hplaced.rule.alignment_dvd_iff
  -- the offset itself is aligned, as that of every packed slot
  have hoffset : slot.alignment.toNat ∣ p.2.offset.toNat := by
    obtain ⟨slot', hslot', hoffset, -⟩ :=
      (packsBlock_of_layout htarget h p.2.block).bounds (Layout.mem_inBlock_block hp)
    rwa [hslot'.unique hplaced.asksFor] at hoffset
  exact ⟨s, slot, hplaced.decode_eq, slotFor_eq_ok_iff.2 hplaced.rule, hdvd,
    (FieldOffset.alignedAnywhere_iff hoffset).trans hdvd⟩

end Module

/-- A module with one scalar of eight bytes, for pointers of four. -/
def narrowModule : Module :=
  .build ⟨1⟩ 4 [.type ⟨"App", "Counters"⟩, .field ⟨1⟩ "total" .static [0x06, 0x0A]]

/-- Its layout for primitives of four bytes. -/
def narrowLayout : Layout where
  home := ⟨1⟩
  blocks := ⟨⟨0, 4⟩, ⟨40, 4⟩, ⟨0, 4⟩, ⟨13, 4⟩⟩
  types := ⟨[(1, [⟨⟨⟨1⟩, ⟨1⟩⟩, .nonGc, 32⟩])], by decide⟩

theorem layout_narrowModule : narrowModule.layout ⟨4⟩ = .ok narrowLayout := by cbv

theorem Module.alignedAnywhere_of_layout_narrowModule_iff :
    narrowModule.layout ⟨4⟩ = .ok narrowLayout ∧
      ∃ target, Target.check 4 ⟨4⟩ = .ok target ∧
        ∀ p ∈ narrowLayout.placements, ∃ s slot,
          FieldSignature.decode (narrowModule.signatureOf p.2.field.field) = .ok s ∧
          narrowModule.slotFor target s = .ok slot ∧
          (slot.alignment.toNat ∣ (narrowLayout.block p.2.block).alignment.toNat ↔
            ¬ ((4 : UInt32) = 4 ∧ s.category = .eightByte)) ∧
          (p.2.AlignedAnywhere slot (narrowLayout.block p.2.block) ↔
            ¬ ((4 : UInt32) = 4 ∧ s.category = .eightByte)) :=
  ⟨layout_narrowModule, alignedAnywhere_of_layout_iff layout_narrowModule⟩

/-- The scalar lies at byte 32 and asks for an alignment of eight, but its block may start at byte 4. -/
theorem Module.not_alignedAnywhere_narrowModule :
    narrowModule.layout ⟨4⟩ = .ok narrowLayout ∧
      ∃ target, Target.check narrowModule.pointerSize ⟨4⟩ = .ok target ∧
        ∃ p ∈ narrowLayout.placements, ∃ slot, narrowModule.AsksFor target p.2.field.field slot ∧
          ¬ slot.alignment.toNat ∣ (narrowLayout.block p.2.block).alignment.toNat ∧
          ¬ p.2.AlignedAnywhere slot (narrowLayout.block p.2.block) := by
  refine ⟨layout_narrowModule, ⟨4, 4, by decide⟩, rfl, (⟨1⟩, ⟨⟨⟨1⟩, ⟨1⟩⟩, .nonGc, 32⟩),
    List.mem_singleton.2 rfl, .square .primitive 8, ⟨⟨⟨0x0A⟩, none⟩, by cbv, rfl⟩, by decide, ?_⟩
  intro haligned
  exact absurd (haligned 4 (Nat.dvd_refl 4)) (by decide)

end StaticStorage
