import StaticStorage.Proofs.Packing.Routing

/-!
# What becomes of a signature

Not every pair of a tag and a handle is a signature that a blob decodes to: a handle may stand behind any tag
here, or be missing behind a value type. Each such pair gets a slot by one of the slot rules or is refused by one
of the defect rules, and no pair is left over. For most tags the tag alone decides. Only value types and the
tags without a storage class look at the handle, and only value types ask the module what it names.

* `exists_slotRule_or_defectRule` — a rule applies to every signature.
* `slotFor_eq_error_iff` — a signature is refused just when a defect rule refuses it.
* `classify_eq_ok_iff`, `classify_eq_error_iff` — a field is given the slots of the rules, or their defects.
* `classifiedByTable` — the outcome for every tag with every handle.
-/

namespace StaticStorage

namespace Module

variable {m : Module} {target : Target} {s : FieldSignature} {f : FieldId} {slot : Slot} {defect : FieldDefect}

/-! ## The rules that refuse a slot -/

/-- The rules by which a signature is refused. -/
inductive DefectRule (m : Module) (s : FieldSignature) : FieldDefect → Prop
  /-- A managed pointer is no static. -/
  | byRef (hcategory : s.category = .byRef) : DefectRule m s .byRef
  /-- A value type of the module that is confined to the stack has no box. -/
  | byRefLike {handle : TypeHandle} {t : TypeId} (hcategory : s.category = .valueType)
    (hhandle : s.valueType = some handle) (hlocal : m.resolveType? handle = some t)
    (hmarked : m.typeHasAttribute t byRefLikeMarker = true) : DefectRule m s (.byRefLike t)
  /-- What has neither a storage class nor a handle says nothing of its size. -/
  | noStorageClass (hcategory : s.category = .valueType ∨ s.category = .unrecognized)
    (hhandle : s.valueType = none) : DefectRule m s (.noStorageClass s.element)

/-- A rule applies to every signature. -/
theorem exists_slotRule_or_defectRule (m : Module) (target : Target) (s : FieldSignature) :
    (∃ slot, m.SlotRule target s slot) ∨ ∃ defect, m.DefectRule s defect := by
  cases hcategory : s.category with
  | oneByte | twoByte | fourByte | pointerSized | eightByte =>
    exact .inl ⟨_, .scalar (by rw [hcategory]; rfl)⟩
  | reference => exact .inl ⟨_, .reference hcategory⟩
  | byRef => exact .inr ⟨_, .byRef hcategory⟩
  | valueType =>
    cases hhandle : s.valueType with
    | none => exact .inr ⟨_, .noStorageClass (.inl hcategory) hhandle⟩
    | some handle =>
      cases hlocal : m.resolveType? handle with
      | none => exact .inl ⟨_, .pessimistic hhandle (.inl ⟨hcategory, hlocal⟩)⟩
      | some t =>
        cases hmarked : m.typeHasAttribute t byRefLikeMarker with
        | false => exact .inl ⟨_, .boxed hcategory hhandle hlocal hmarked⟩
        | true => exact .inr ⟨_, .byRefLike hcategory hhandle hlocal hmarked⟩
  | unrecognized =>
    cases hhandle : s.valueType with
    | none => exact .inr ⟨_, .noStorageClass (.inr hcategory) hhandle⟩
    | some handle => exact .inl ⟨_, .pessimistic hhandle (.inr hcategory)⟩

/-- Without a handle there is no slot for unknown contents. -/
theorem pessimisticSlot_eq_error (hhandle : s.valueType = none) :
    pessimisticSlot target s = .error (.noStorageClass s.element) := by
  unfold pessimisticSlot
  rw [hhandle]
  rfl

/-- The rules refuse what they say. -/
theorem DefectRule.slotFor_eq_error (h : m.DefectRule s defect) : m.slotFor target s = .error defect := by
  unfold slotFor
  cases h with
  | byRef hcategory => rw [hcategory]
  | byRefLike hcategory hhandle hlocal hmarked =>
    simp only [hcategory, hhandle, Option.bind_some, hlocal]
    rw [boxedSlot_eq_ite hlocal, if_pos hmarked]
  | noStorageClass hcategory hhandle =>
    rcases hcategory with hcategory | hcategory
    · simp only [hcategory, hhandle, Option.bind_none]
      exact pessimisticSlot_eq_error hhandle
    · simp only [hcategory]
      exact pessimisticSlot_eq_error hhandle

/-- A signature is refused just when a defect rule refuses it. -/
theorem slotFor_eq_error_iff : m.slotFor target s = .error defect ↔ m.DefectRule s defect := by
  refine ⟨fun h => ?_, DefectRule.slotFor_eq_error⟩
  rcases exists_slotRule_or_defectRule m target s with ⟨slot, hslot⟩ | ⟨defect', hdefect⟩
  · rw [slotFor_eq_ok_iff.2 hslot] at h
    cases h
  · rw [hdefect.slotFor_eq_error] at h
    cases h
    exact hdefect

/-! ## Classification -/

/-- A field is given the slots of the rules. -/
theorem classify_eq_ok_iff : m.classify target f s = .ok slot ↔ m.SlotRule target s slot :=
  mapError_eq_ok.trans slotFor_eq_ok_iff

/-- A field is refused with the defects of the rules. -/
theorem classify_eq_error_iff :
    m.classify target f s = .error (.field f defect) ↔ m.DefectRule s defect := by
  unfold classify
  rw [mapError_eq_error]
  constructor
  · rintro ⟨defect', h, hreport⟩
    obtain rfl := (LayoutError.field.inj hreport).2
    exact slotFor_eq_error_iff.1 h
  · intro h
    exact ⟨defect, slotFor_eq_error_iff.2 h, rfl⟩

/-- A type that is confined to the stack is found behind the tag of a value type only. -/
theorem classify_eq_byRefLike_iff {e : Element} {handle : Option TypeHandle} {t : TypeId} :
    m.classify target f ⟨e, handle⟩ = .error (.field f (.byRefLike t)) ↔
      e = .valueType ∧ handle.bind m.resolveType? = some t ∧
        m.typeHasAttribute t byRefLikeMarker = true := by
  rw [classify_eq_error_iff]
  constructor
  · rintro (_ | ⟨hcategory, hhandle, hlocal, hmarked⟩ | _)
    have ht : handle.bind m.resolveType? = some t := Option.bind_eq_some_iff.2 ⟨_, hhandle, hlocal⟩
    exact ⟨Element.category_eq_valueType_iff.1 hcategory, ht, hmarked⟩
  · rintro ⟨he, ht, hmarked⟩
    obtain ⟨handle, rfl, hlocal⟩ := Option.bind_eq_some_iff.1 ht
    exact .byRefLike (Element.category_eq_valueType_iff.2 he) rfl hlocal hmarked

/-- Where the tag alone decides, neither the handle nor the module makes a difference. -/
theorem classify_eq_of_category {m m' : Module} {e : Element} (hvalueType : e.category ≠ .valueType)
    (hunrecognized : e.category ≠ .unrecognized) (target : Target) (f : FieldId)
    (handle handle' : Option TypeHandle) :
    m'.classify target f ⟨e, handle'⟩ = m.classify target f ⟨e, handle⟩ := by
  unfold classify slotFor FieldSignature.category
  cases hcategory : e.category with
  | oneByte | twoByte | fourByte | pointerSized | eightByte | reference | byRef => rfl
  | valueType => exact absurd hcategory hvalueType
  | unrecognized => exact absurd hcategory hunrecognized

/-- What is to be said of the classification of a field by a tag and a handle, whichever these are. -/
structure ClassifiedByTable (m : Module) (target : Target) (f : FieldId) (e : Element)
    (handle : Option TypeHandle) : Prop where
  scalar : ∀ size, e.category.scalarSize? target = some size →
    m.classify target f ⟨e, handle⟩ = .ok (.square .primitive size)
  reference : e.category = .reference →
    m.classify target f ⟨e, handle⟩ = .ok (.square .gcReference target.pointerSize)
  byRef : e.category = .byRef → m.classify target f ⟨e, handle⟩ = .error (.field f .byRef)
  /-- Where the tag alone decides, neither the handle nor the module makes a difference. -/
  independent : e.category ≠ .valueType → e.category ≠ .unrecognized → ∀ (m' : Module) handle',
    m'.classify target f ⟨e, handle'⟩ = m.classify target f ⟨e, handle⟩
  /-- A value type of the module is boxed. -/
  boxed : e = .valueType → ∀ t, handle.bind m.resolveType? = some t →
    m.typeHasAttribute t byRefLikeMarker = false →
      m.classify target f ⟨e, handle⟩ = .ok (.square .boxedValueType target.pointerSize)
  /-- It is refused just when it is confined to the stack. -/
  byRefLike_iff : ∀ t, m.classify target f ⟨e, handle⟩ = .error (.field f (.byRefLike t)) ↔
    e = .valueType ∧ handle.bind m.resolveType? = some t ∧ m.typeHasAttribute t byRefLikeMarker = true
  /-- Behind a tag without a storage class, a handle to a type of the module is as good as any other. -/
  pessimistic : e = .valueType ∧ handle.bind m.resolveType? = none ∨ e.category = .unrecognized →
    handle.isSome → m.classify target f ⟨e, handle⟩ = .ok (.square .pessimistic target.largestPrimitive)
  noStorageClass : e = .valueType ∨ e.category = .unrecognized → handle = none →
    m.classify target f ⟨e, handle⟩ = .error (.field f (.noStorageClass e))
  square : ∀ slot, m.classify target f ⟨e, handle⟩ = .ok slot → slot.alignment = slot.size
  size_isPowerOfTwo_and_le : ∀ slot, m.classify target f ⟨e, handle⟩ = .ok slot →
    slot.size.toNat.isPowerOfTwo ∧ slot.size.toNat ≤ max 8 target.largestPrimitive.toNat
  size_of_isGc : ∀ slot, m.classify target f ⟨e, handle⟩ = .ok slot → slot.isGc = true →
    slot.size = target.pointerSize

/-- Every tag is classified with every handle, by one table. -/
theorem classifiedByTable (m : Module) (target : Target) (f : FieldId) (e : Element)
    (handle : Option TypeHandle) : ClassifiedByTable m target f e handle where
  scalar _ hsize := classify_eq_ok_iff.2 (.scalar hsize)
  reference hcategory := classify_eq_ok_iff.2 (.reference hcategory)
  byRef hcategory := classify_eq_error_iff.2 (.byRef hcategory)
  independent hvalueType hunrecognized _ handle' :=
    classify_eq_of_category hvalueType hunrecognized target f handle handle'
  boxed he t ht hboxable := by
    obtain ⟨handle, rfl, hlocal⟩ := Option.bind_eq_some_iff.1 ht
    exact classify_eq_ok_iff.2 (.boxed (Element.category_eq_valueType_iff.2 he) rfl hlocal hboxable)
  byRefLike_iff _ := classify_eq_byRefLike_iff
  pessimistic hunknown hsome := by
    obtain ⟨handle, rfl⟩ := Option.isSome_iff_exists.1 hsome
    refine classify_eq_ok_iff.2 (.pessimistic rfl (hunknown.imp_left fun ⟨he, hforeign⟩ => ?_))
    exact ⟨Element.category_eq_valueType_iff.2 he, hforeign⟩
  noStorageClass hcategory hnone :=
    classify_eq_error_iff.2 (.noStorageClass (hcategory.imp_left Element.category_eq_valueType_iff.2) hnone)
  square _ h := (classify_eq_ok_iff.1 h).alignment_eq_size
  size_isPowerOfTwo_and_le _ h := (classify_eq_ok_iff.1 h).size_isPowerOfTwo_and_le
  size_of_isGc slot h hgc := congrArg Slot.size ((classify_eq_ok_iff.1 h).eq_square_of_isGc hgc)

/-- The third type is confined to the stack, which is asked of value types only. -/
example (target : Target) :
    assortedModule.classify target ⟨1⟩ ⟨.valueType, some (.typeDef ⟨3⟩)⟩ =
        .error (.field ⟨1⟩ (.byRefLike ⟨3⟩)) ∧
      assortedModule.classify target ⟨1⟩ ⟨.classType, some (.typeDef ⟨3⟩)⟩ =
        .ok (.square .gcReference target.pointerSize) ∧
      assortedModule.classify target ⟨1⟩ ⟨.genericInstance, some (.typeDef ⟨3⟩)⟩ =
        .ok (.square .pessimistic target.largestPrimitive) :=
  ⟨rfl, rfl, rfl⟩

end Module

end StaticStorage
