import StaticStorage.Layout.Slot

/-!
# The rules that give a slot

A signature gets its slot by one of four rules, and `SlotRule` states each of them with all that it asks of
the signature, of the module and of the target. What a slot can look like, and which signatures have which
kind of slot, is read off the rules, so that nothing else has to go through the table of categories.

* `slotFor_eq_ok_iff` — a signature has a slot just when a rule gives it.
* `resolveType?_eq_some_iff`, `resolveType?_eq_none_iff` — the handles that name a type of the module, and
  those that do not.
* `SlotRule.size_isPowerOfTwo_and_le`, `SlotRule.eq_square_of_isGc` — the sizes of slots.
* `SlotRule.isGc_iff`, `SlotRule.pessimistic_iff` — the signatures behind references and behind slots of
  unknown contents.
-/

namespace StaticStorage

/-! ## Targets -/

namespace Target

theorem isPowerOfTwo_pointerSize (target : Target) : target.pointerSize.toNat.isPowerOfTwo := by
  rcases target.supported.1 with h | h <;> rw [h]
  · exact ⟨2, rfl⟩
  · exact ⟨3, rfl⟩

theorem pointerSize_le_largestPrimitive (target : Target) :
    target.pointerSize.toNat ≤ target.largestPrimitive.toNat :=
  UInt32.le_iff_toNat_le.1 target.supported.2.2

end Target

/-! ## Handles -/

namespace Module

variable {m : Module} {target : Target}

/-- The handle names no type of the module: it names a row of another table, the nil row, or a row behind
the last type. -/
inductive Foreign (m : Module) : TypeHandle → Prop
  | typeRef (row : UInt32) : Foreign m (.typeRef row)
  | typeSpec (row : UInt32) : Foreign m (.typeSpec row)
  | nil : Foreign m (.typeDef .nil)
  | outOfRange {t : TypeId} (h : m.typeCount < t.row) : Foreign m (.typeDef t)

/-- The handles into the type table of a module are those of its rows, the nil row aside. -/
theorem localType?_eq_some_iff {handle : TypeHandle} {t : TypeId} :
    handle.localType? = some t ↔ handle = .typeDef t ∧ 1 ≤ t.row.toNat := by
  have hrow : 1 ≤ t.row.toNat ↔ t.isNil = false := by
    rw [TypeId.isNil, beq_eq_false_iff_ne, Ne, ← UInt32.toNat_inj, UInt32.toNat_zero]
    exact Nat.pos_iff_ne_zero
  rw [hrow]
  cases handle with
  | typeRef row => exact iff_of_false nofun fun h => nomatch h.1
  | typeSpec row => exact iff_of_false nofun fun h => nomatch h.1
  | typeDef t' =>
    change (if t'.isNil = true then none else some t') = some t ↔ _
    rw [TypeHandle.typeDef.injEq]
    constructor
    · intro h
      split at h
      · cases h
      · next hnil =>
        cases h
        exact ⟨rfl, Bool.eq_false_iff.2 hnil⟩
    · rintro ⟨rfl, hnil⟩
      exact if_neg (Bool.eq_false_iff.1 hnil)

/-- The types of a module are named by their own rows, and by nothing else. -/
theorem resolveType?_eq_some_iff {handle : TypeHandle} {t : TypeId} :
    m.resolveType? handle = some t ↔
      handle = .typeDef t ∧ 1 ≤ t.row.toNat ∧ t.row ≤ m.typeCount := by
  rw [← and_assoc, ← localType?_eq_some_iff]
  unfold resolveType?
  cases handle.localType? with
  | none => exact iff_of_false nofun fun h => nomatch h.1
  | some t' =>
    dsimp only
    rw [Option.some.injEq]
    constructor
    · intro h
      split at h
      · next hle =>
        cases h
        exact ⟨rfl, hle⟩
      · cases h
    · rintro ⟨rfl, hle⟩
      exact if_pos hle

/-- A handle is foreign when it names no type of the module. -/
theorem resolveType?_eq_none_iff {handle : TypeHandle} :
    m.resolveType? handle = none ↔ m.Foreign handle := by
  rw [Option.eq_none_iff_forall_ne_some]
  constructor
  · intro hnone
    match handle with
    | .typeRef row => exact .typeRef row
    | .typeSpec row => exact .typeSpec row
    | .typeDef t =>
      by_cases hpos : 1 ≤ t.row.toNat
      · have hgt : ¬ t.row ≤ m.typeCount := fun hle =>
          hnone t (resolveType?_eq_some_iff.2 ⟨rfl, hpos, hle⟩)
        exact .outOfRange (UInt32.not_le.1 hgt)
      · have hrow : t.row = 0 := by
          rw [← UInt32.toNat_inj, UInt32.toNat_zero]
          omega
        obtain rfl : t = .nil := congrArg TypeId.mk hrow
        exact .nil
  · intro hforeign t h
    obtain ⟨rfl, hpos, hle⟩ := resolveType?_eq_some_iff.1 h
    cases hforeign with
    | nil => exact absurd hpos (by decide)
    | outOfRange hlt => exact absurd hle (UInt32.not_le.2 hlt)

/-- What a handle names depends on the number of types. -/
theorem resolveType?_congr {m' : Module} (hcount : m'.typeCount = m.typeCount) (handle : TypeHandle) :
    m'.resolveType? handle = m.resolveType? handle := by
  unfold resolveType?
  rw [hcount]

/-- Whether a type is confined to the stack depends on the types of its module, and not on any field. -/
theorem isByRefLike_congr {m' : Module} (h : m'.types = m.types) (handle : TypeHandle) :
    m'.isByRefLike handle = m.isByRefLike handle := by
  cases m
  cases m'
  cases h
  rfl

/-- The slot of a field depends on the type that its signature names, and on whether this type is confined to
the stack. -/
theorem slotFor_congr_of_resolveType? {m' : Module} {s : FieldSignature}
    (hresolve : s.valueType.bind m'.resolveType? = s.valueType.bind m.resolveType?)
    (hconfined : ∀ t, s.valueType.bind m.resolveType? = some t →
      m'.isByRefLike (.typeDef t) = m.isByRefLike (.typeDef t))
    (target : Target) : m'.slotFor target s = m.slotFor target s := by
  unfold slotFor
  rw [hresolve]
  cases hlocal : s.valueType.bind m.resolveType? with
  | none => rfl
  | some t =>
    have hboxed : m'.boxedSlot target t = m.boxedSlot target t := by
      unfold boxedSlot
      rw [hconfined t hlocal]
    dsimp only
    rw [hboxed]

/-- The slot of a field depends on the number of types and on those that are confined to the stack. -/
theorem slotFor_congr {m' : Module} (hcount : m'.typeCount = m.typeCount)
    (hconfined : ∀ t, 1 ≤ t.row.toNat ∧ t.row ≤ m.typeCount →
      m'.isByRefLike (.typeDef t) = m.isByRefLike (.typeDef t))
    (target : Target) (s : FieldSignature) : m'.slotFor target s = m.slotFor target s := by
  refine slotFor_congr_of_resolveType? ?_ (fun t ht => ?_) target
  · congr 1
    exact funext (resolveType?_congr hcount)
  · obtain ⟨handle, -, hlocal⟩ := Option.bind_eq_some_iff.1 ht
    exact hconfined t (resolveType?_eq_some_iff.1 hlocal).2

end Module

/-! ## The rules -/

/-- The size of a scalar of the category; the other categories are no scalars. -/
def ElementCategory.scalarSize? (target : Target) : ElementCategory → Option UInt32
  | oneByte => some 1
  | twoByte => some 2
  | fourByte => some 4
  | pointerSized => some target.pointerSize
  | eightByte => some 8
  | reference | byRef | valueType | unrecognized => none

namespace Module

variable {m : Module} {target : Target} {s : FieldSignature} {slot : Slot}

/-- The rules by which a signature gets its slot. -/
inductive SlotRule (m : Module) (target : Target) (s : FieldSignature) : Slot → Prop
  /-- A scalar takes as many bytes as it has. -/
  | scalar {size : UInt32} (hsize : s.category.scalarSize? target = some size) :
    SlotRule m target s (.square .primitive size)
  /-- A reference is a pointer. -/
  | reference (hcategory : s.category = .reference) :
    SlotRule m target s (.square .gcReference target.pointerSize)
  /-- A value type of the module is a pointer to its box, unless it is confined to the stack. -/
  | boxed {handle : TypeHandle} {t : TypeId} (hcategory : s.category = .valueType)
    (hhandle : s.valueType = some handle) (hlocal : m.resolveType? handle = some t)
    (hboxable : m.typeHasAttribute t byRefLikeMarker = false) :
    SlotRule m target s (.square .boxedValueType target.pointerSize)
  /-- Anything else with a handle has room for the largest primitive. -/
  | pessimistic {handle : TypeHandle} (hhandle : s.valueType = some handle)
    (hunknown : s.category = .valueType ∧ m.resolveType? handle = none ∨ s.category = .unrecognized) :
    SlotRule m target s (.square .pessimistic target.largestPrimitive)

/-- A slot of unknown contents takes a handle. -/
theorem pessimisticSlot_eq_ok_iff :
    pessimisticSlot target s = .ok slot ↔
      (∃ handle, s.valueType = some handle) ∧ slot = .square .pessimistic target.largestPrimitive := by
  unfold pessimisticSlot
  cases s.valueType with
  | none => simp
  | some handle => simp [eq_comm]

/-- The marker decides whether a type that exists has a box. -/
theorem boxedSlot_eq_ite {handle : TypeHandle} {t : TypeId} (ht : m.resolveType? handle = some t) :
    m.boxedSlot target t = if m.typeHasAttribute t byRefLikeMarker = true then .error (.byRefLike t)
      else .ok (.square .boxedValueType target.pointerSize) := by
  obtain ⟨rfl, -⟩ := resolveType?_eq_some_iff.1 ht
  unfold boxedSlot isByRefLike
  rw [ht]

/-- A type that exists has a box unless it carries the marker. -/
theorem boxedSlot_eq_ok_iff {handle : TypeHandle} {t : TypeId} (ht : m.resolveType? handle = some t) :
    m.boxedSlot target t = .ok slot ↔
      m.typeHasAttribute t byRefLikeMarker = false ∧
        slot = .square .boxedValueType target.pointerSize := by
  rw [boxedSlot_eq_ite ht]
  by_cases hmarked : m.typeHasAttribute t byRefLikeMarker = true
  · rw [if_pos hmarked, hmarked]
    exact iff_of_false nofun fun h => nomatch h.1
  · rw [if_neg hmarked, Except.ok.injEq, and_iff_right (Bool.eq_false_iff.2 hmarked)]
    exact eq_comm

/-- A signature has a slot just when a rule gives it. -/
theorem slotFor_eq_ok_iff : m.slotFor target s = .ok slot ↔ m.SlotRule target s slot := by
  unfold slotFor
  constructor
  · intro h
    cases hcategory : s.category <;> simp only [hcategory] at h
    case oneByte | twoByte | fourByte | pointerSized | eightByte =>
      cases h
      exact .scalar (by rw [hcategory]; rfl)
    case reference =>
      cases h
      exact .reference hcategory
    case byRef => cases h
    case valueType =>
      cases hhandle : s.valueType with
      | none =>
        simp only [hhandle, Option.bind_none] at h
        obtain ⟨⟨handle, hsome⟩, -⟩ := pessimisticSlot_eq_ok_iff.1 h
        cases hhandle.symm.trans hsome
      | some handle =>
        simp only [hhandle, Option.bind_some] at h
        cases hlocal : m.resolveType? handle with
        | none =>
          simp only [hlocal] at h
          obtain ⟨-, rfl⟩ := pessimisticSlot_eq_ok_iff.1 h
          exact .pessimistic hhandle (.inl ⟨hcategory, hlocal⟩)
        | some t =>
          simp only [hlocal] at h
          obtain ⟨hboxable, rfl⟩ := (boxedSlot_eq_ok_iff hlocal).1 h
          exact .boxed hcategory hhandle hlocal hboxable
    case unrecognized =>
      obtain ⟨⟨handle, hhandle⟩, rfl⟩ := pessimisticSlot_eq_ok_iff.1 h
      exact .pessimistic hhandle (.inr hcategory)
  · intro h
    cases h with
    | scalar hsize =>
      cases hcategory : s.category <;> rw [hcategory] at hsize <;> cases hsize <;> rfl
    | reference hcategory => rw [hcategory]
    | boxed hcategory hhandle hlocal hboxable =>
      simp only [hcategory, hhandle, Option.bind_some, hlocal]
      exact (boxedSlot_eq_ok_iff hlocal).2 ⟨hboxable, rfl⟩
    | pessimistic hhandle hunknown =>
      have hslot : pessimisticSlot target s = .ok (.square .pessimistic target.largestPrimitive) :=
        pessimisticSlot_eq_ok_iff.2 ⟨⟨_, hhandle⟩, rfl⟩
      rcases hunknown with ⟨hcategory, hforeign⟩ | hcategory
      · simp only [hcategory, hhandle, Option.bind_some, hforeign]
        exact hslot
      · simp only [hcategory]
        exact hslot

namespace SlotRule

/-! ## The sizes of slots -/

/-- A slot is as large as it is aligned, and has one of six sizes. -/
theorem exists_square (h : m.SlotRule target s slot) :
    ∃ kind, ∃ size ∈ [1, 2, 4, 8, target.pointerSize, target.largestPrimitive],
      slot = .square kind size := by
  cases h with
  | scalar hsize =>
    refine ⟨_, _, ?_, rfl⟩
    cases hcategory : s.category <;> rw [hcategory] at hsize <;> cases hsize <;> simp
  | reference => exact ⟨_, _, by simp, rfl⟩
  | boxed => exact ⟨_, _, by simp, rfl⟩
  | pessimistic => exact ⟨_, _, by simp, rfl⟩

theorem alignment_eq_size (h : m.SlotRule target s slot) : slot.alignment = slot.size := by
  obtain ⟨kind, size, -, rfl⟩ := h.exists_square
  rfl

/-- The size of a slot is a power of two, and at most that of the widest scalar or of the largest primitive. -/
theorem size_isPowerOfTwo_and_le (h : m.SlotRule target s slot) :
    slot.size.toNat.isPowerOfTwo ∧ slot.size.toNat ≤ max 8 target.largestPrimitive.toNat := by
  obtain ⟨kind, size, hsize, rfl⟩ := h.exists_square
  change size.toNat.isPowerOfTwo ∧ size.toNat ≤ _
  simp only [List.mem_cons, List.not_mem_nil, or_false] at hsize
  rcases hsize with rfl | rfl | rfl | rfl | rfl | rfl
  · exact ⟨⟨0, rfl⟩, Nat.le_trans (by decide) (Nat.le_max_left ..)⟩
  · exact ⟨⟨1, rfl⟩, Nat.le_trans (by decide) (Nat.le_max_left ..)⟩
  · exact ⟨⟨2, rfl⟩, Nat.le_trans (by decide) (Nat.le_max_left ..)⟩
  · exact ⟨⟨3, rfl⟩, Nat.le_max_left ..⟩
  · exact ⟨target.isPowerOfTwo_pointerSize,
      Nat.le_trans target.pointerSize_le_largestPrimitive (Nat.le_max_right ..)⟩
  · exact ⟨target.supported.2.1, Nat.le_max_right ..⟩

/-- No slot is aligned to zero. -/
theorem alignment_pos (h : m.SlotRule target s slot) : 0 < slot.alignment.toNat := by
  rw [h.alignment_eq_size]
  exact Nat.pos_of_isPowerOfTwo h.size_isPowerOfTwo_and_le.1

/-- A reference takes a pointer and nothing more. -/
theorem eq_square_of_isGc (h : m.SlotRule target s slot) (hgc : slot.isGc = true) :
    slot = .square slot.kind target.pointerSize := by
  cases h with
  | scalar | pessimistic => cases hgc
  | reference | boxed => rfl

/-- A slot of unknown contents has the size of the largest primitive, and there is a handle behind it. -/
theorem eq_square_of_pessimistic (h : m.SlotRule target s slot) (hkind : slot.kind = .pessimistic) :
    slot = .square .pessimistic target.largestPrimitive ∧ s.valueType.isSome := by
  cases h with
  | scalar | reference | boxed => cases hkind
  | pessimistic hhandle => exact ⟨rfl, Option.isSome_of_eq_some hhandle⟩

/-! ## The kinds of slots -/

/-- References are the tags of that category and the value types of the module. -/
theorem isGc_iff (h : m.SlotRule target s slot) :
    slot.isGc = true ↔ s.category = .reference ∨
      s.category = .valueType ∧ ∃ t, s.valueType = some (.typeDef t) ∧
        1 ≤ t.row.toNat ∧ t.row ≤ m.typeCount := by
  cases h with
  | scalar hsize =>
    refine iff_of_false Bool.false_ne_true ?_
    rintro (hcategory | ⟨hcategory, -⟩) <;> rw [hcategory] at hsize <;> cases hsize
  | reference hcategory => exact iff_of_true rfl (.inl hcategory)
  | boxed hcategory hhandle hlocal =>
    obtain ⟨rfl, hrow⟩ := resolveType?_eq_some_iff.1 hlocal
    exact iff_of_true rfl (.inr ⟨hcategory, _, hhandle, hrow⟩)
  | pessimistic hhandle hunknown =>
    refine iff_of_false Bool.false_ne_true ?_
    rintro (hcategory | ⟨hcategory, t, hsome, hrow⟩)
    · simp [hcategory] at hunknown
    · cases hhandle.symm.trans hsome
      simp [hcategory, resolveType?_eq_some_iff.2 ⟨rfl, hrow⟩] at hunknown

/-- A slot of unknown contents belongs to a value type that is none of the module's, or to a tag without
a storage class. -/
theorem pessimistic_iff (h : m.SlotRule target s slot) :
    slot.kind = .pessimistic ↔
      s.category = .valueType ∧ (∃ handle, s.valueType = some handle ∧ m.Foreign handle) ∨
        s.category = .unrecognized := by
  cases h with
  | scalar hsize =>
    refine iff_of_false (by simp [Slot.square]) ?_
    rintro (⟨hcategory, -⟩ | hcategory) <;> rw [hcategory] at hsize <;> cases hsize
  | reference hcategory => exact iff_of_false (by simp [Slot.square]) (by simp [hcategory])
  | boxed hcategory hhandle hlocal =>
    refine iff_of_false (by simp [Slot.square]) ?_
    rintro (⟨-, handle, hsome, hforeign⟩ | hother)
    · cases hhandle.symm.trans hsome
      rw [← resolveType?_eq_none_iff, hlocal] at hforeign
      cases hforeign
    · cases hcategory.symm.trans hother
  | pessimistic hhandle hunknown =>
    refine iff_of_true rfl ?_
    rcases hunknown with ⟨hcategory, hforeign⟩ | hcategory
    · exact .inl ⟨hcategory, _, hhandle, resolveType?_eq_none_iff.1 hforeign⟩
    · exact .inr hcategory

/-- A value type of the module that has a slot is not confined to the stack. -/
theorem typeHasAttribute_eq_false (h : m.SlotRule target s slot) (hcategory : s.category = .valueType)
    {handle : TypeHandle} {t : TypeId} (hhandle : s.valueType = some handle)
    (hlocal : m.resolveType? handle = some t) : m.typeHasAttribute t byRefLikeMarker = false := by
  cases h with
  | scalar hsize =>
    rw [hcategory] at hsize
    cases hsize
  | reference hother => cases hcategory.symm.trans hother
  | boxed _ hhandle' hlocal' hboxable =>
    cases hhandle.symm.trans hhandle'
    cases hlocal.symm.trans hlocal'
    exact hboxable
  | pessimistic hhandle' hunknown =>
    cases hhandle.symm.trans hhandle'
    simp [hcategory, hlocal] at hunknown

/-- A managed pointer has no slot. -/
theorem category_ne_byRef (h : m.SlotRule target s slot) : s.category ≠ .byRef := by
  intro hbyRef
  rw [← slotFor_eq_ok_iff, slotFor, hbyRef] at h
  cases h

end SlotRule

end Module

end StaticStorage
