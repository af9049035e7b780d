import StaticStorage.Proofs.Packing.Fill
import StaticStorage.Proofs.Packing.Placements
import StaticStorage.Proofs.Packing.Renaming

/-!
# What becomes of a module

A module has a layout unless something happens: its target is not supported, the bytes reserved at the
start of a block are too many for a word, or one of its static fields cannot be decoded, cannot be given a
slot or ends behind the largest word. What happens first decides the outcome, in the order of the walk, and
an error that a field causes names this field. Fields that the walk does not visit cause none.

* `place_eq_error_iff` — a field cannot be placed just when something happens at it.
* `placeStatics_eq_error_iff` — a walk ends with the first thing that happens.
* `PassedOver.layout_withSignature` — the signature of a field that is not visited has no part in the layout.
* `layout_eq_error_cases` — the three causes of an outcome without a layout.
-/

namespace StaticStorage

namespace Module

variable {m : Module} {target : Target}

/-! ## Events -/

/-- What can happen at a static field when so many bytes are in use. -/
inductive FieldEvent (m : Module) (target : Target) (fill : BlockKind → ℕ) (f : FieldId) :
    LayoutError → Prop
  /-- The signature of the field makes no sense. -/
  | undecodable {fault : SignatureError} (h : FieldSignature.decode (m.signatureOf f) = .error fault) :
    FieldEvent m target fill f (.field f (.malformed fault))
  /-- The field has no slot. -/
  | unplaceable {signature : FieldSignature} {defect : FieldDefect}
    (hdecode : FieldSignature.decode (m.signatureOf f) = .ok signature)
    (hslot : m.slotFor target signature = .error defect) :
    FieldEvent m target fill f (.field f defect)
  /-- The slot of the field ends behind the largest word. -/
  | overflow {slot : Slot} (hslot : m.AsksFor target f slot)
    (hend : UInt32.size ≤ slot.endBehind (fill (.select slot.isGc (m.isThreadStatic f)))) :
    FieldEvent m target fill f .overflow

/-- Something happens at the field at a position, when the fields before it have been placed. -/
def EventAt (m : Module) (target : Target) (fill : BlockKind → ℕ) (fields : List (TypeId × FieldId))
    (i : ℕ) (e : LayoutError) : Prop :=
  ∃ p, fields[i]? = some p ∧ m.FieldEvent target (m.fillAfter target fill (fields.take i)) p.2 e

/-- Something happens at a field, and nothing at the fields before it. -/
def FirstEvent (m : Module) (target : Target) (fill : BlockKind → ℕ)
    (fields : List (TypeId × FieldId)) (e : LayoutError) : Prop :=
  ∃ i, m.EventAt target fill fields i e ∧ ∀ j < i, ∀ e', ¬ m.EventAt target fill fields j e'

/-- A field is without a demand when its signature makes no sense or it has no slot. -/
theorem demand_eq_error_iff {f : FieldId} {e : LayoutError} :
    m.demand target f = .error e ↔
      (∃ fault, FieldSignature.decode (m.signatureOf f) = .error fault ∧ .field f (.malformed fault) = e) ∨
        ∃ signature, FieldSignature.decode (m.signatureOf f) = .ok signature ∧
          ∃ defect, m.slotFor target signature = .error defect ∧ .field f defect = e := by
  unfold demand
  rw [bind_eq_error, mapError_eq_error]
  refine or_congr Iff.rfl (exists_congr fun signature => ?_)
  rw [mapError_eq_ok, bind_eq_error, classify, mapError_eq_error]
  refine and_congr Iff.rfl (or_iff_left ?_)
  rintro ⟨slot, -, hpure⟩
  cases hpure

/-- What is wrong with a field's demand is no overflow. -/
theorem demand_ne_overflow {f : FieldId} : m.demand target f ≠ .error .overflow := by
  rw [Ne, demand_eq_error_iff]
  rintro (⟨fault, -, hreport⟩ | ⟨signature, -, defect, -, hreport⟩) <;> cases hreport

/-- What happens at a field is that it has no demand, or that the demand cannot be met. -/
theorem fieldEvent_iff {fill : BlockKind → ℕ} {f : FieldId} {e : LayoutError} :
    m.FieldEvent target fill f e ↔
      m.demand target f = .error e ∨
        ∃ demand, m.demand target f = .ok demand ∧
          UInt32.size ≤ demand.slot.endBehind (fill demand.block) ∧ e = .overflow := by
  constructor
  · intro hevent
    cases hevent with
    | undecodable hdecode => exact .inl (demand_eq_error_iff.2 (.inl ⟨_, hdecode, rfl⟩))
    | unplaceable hdecode hslot =>
      exact .inl (demand_eq_error_iff.2 (.inr ⟨_, hdecode, _, hslot, rfl⟩))
    | @overflow slot hasks hend =>
      have hdemand : m.demand target f = .ok ⟨.select slot.isGc (m.isThreadStatic f), slot⟩ :=
        demand_eq_ok_iff.2 ⟨hasks, rfl⟩
      exact .inr ⟨_, hdemand, hend, rfl⟩
  · rintro (hdemand | ⟨demand, hdemand, hend, rfl⟩)
    · rcases demand_eq_error_iff.1 hdemand with ⟨fault, hdecode, rfl⟩ | ⟨signature, hdecode, _, hslot, rfl⟩
      · exact .undecodable hdecode
      · exact .unplaceable hdecode hslot
    · obtain ⟨hasks, hblock⟩ := demand_eq_ok_iff.1 hdemand
      rw [hblock] at hend
      exact .overflow hasks hend

/-- A field cannot be placed just when something happens at it. -/
theorem place_eq_error_iff {f : FieldId} {sizes : BlockSizes} {e : LayoutError} :
    m.place target f sizes = .error e ↔ m.FieldEvent target sizes.fill f e := by
  unfold place
  rw [fieldEvent_iff, bind_eq_error]
  refine or_congr Iff.rfl (exists_congr fun demand => and_congr_right fun hdemand => ?_)
  have hpos : 0 < demand.slot.alignment.toNat := (demand_eq_ok_iff.1 hdemand).1.alignment_pos
  rw [bind_eq_error, LayoutError.orOverflow_eq_error, BlockSizes.place?_eq_none_iff hpos]
  refine or_iff_left ?_
  rintro ⟨placed, -, hpure⟩
  cases hpure

/-! ## The first event -/

variable {fill : BlockKind → ℕ} {t : TypeId} {f : FieldId} {fields : List (TypeId × FieldId)}
  {e : LayoutError}

theorem eventAt_zero :
    m.EventAt target fill ((t, f) :: fields) 0 e ↔ m.FieldEvent target fill f e := by
  unfold EventAt
  simp [fillAfter]

theorem eventAt_succ {i : ℕ} :
    m.EventAt target fill ((t, f) :: fields) (i + 1) e ↔
      m.EventAt target (m.fillWith target fill f) fields i e := by
  unfold EventAt
  simp [fillAfter]

/-- If something happens at the first field, it is the first event. -/
theorem firstEvent_cons_of_fieldEvent (h : m.FieldEvent target fill f e) {e' : LayoutError} :
    m.FirstEvent target fill ((t, f) :: fields) e' ↔ m.FieldEvent target fill f e' := by
  constructor
  · rintro ⟨i, hevent, hfirst⟩
    cases i with
    | zero => exact eventAt_zero.1 hevent
    | succ i => exact absurd (eventAt_zero.2 h) (hfirst 0 (Nat.succ_pos i) e)
  · intro hevent
    exact ⟨0, eventAt_zero.2 hevent, fun j hj => absurd hj (Nat.not_lt_zero j)⟩

/-- If nothing happens at the first field, the first event is that of the other fields. -/
theorem firstEvent_cons_of_not (h : ∀ e, ¬ m.FieldEvent target fill f e) :
    m.FirstEvent target fill ((t, f) :: fields) e ↔
      m.FirstEvent target (m.fillWith target fill f) fields e := by
  constructor
  · rintro ⟨i, hevent, hfirst⟩
    cases i with
    | zero => exact absurd (eventAt_zero.1 hevent) (h e)
    | succ i =>
      exact ⟨i, eventAt_succ.1 hevent, fun j hj e' hearlier =>
        hfirst (j + 1) (Nat.succ_lt_succ hj) e' (eventAt_succ.2 hearlier)⟩
  · rintro ⟨i, hevent, hfirst⟩
    refine ⟨i + 1, eventAt_succ.2 hevent, fun j hj e' hearlier => ?_⟩
    cases j with
    | zero => exact h e' (eventAt_zero.1 hearlier)
    | succ j => exact hfirst j (Nat.lt_of_succ_lt_succ hj) e' (eventAt_succ.1 hearlier)

/-- A walk ends with the first thing that happens. -/
theorem placeStatics_eq_error_iff {sizes : BlockSizes} :
    m.placeStatics target fields sizes = .error e ↔ m.FirstEvent target sizes.fill fields e := by
  induction fields generalizing sizes with
  | nil =>
    rw [placeStatics_nil]
    refine iff_of_false nofun ?_
    rintro ⟨i, ⟨p, hp, -⟩, -⟩
    simp at hp
  | cons p fields ih =>
    obtain ⟨t, f⟩ := p
    rw [placeStatics_cons]
    cases hplace : m.place target f sizes with
    | error e' =>
      rw [firstEvent_cons_of_fieldEvent (place_eq_error_iff.1 hplace), ← place_eq_error_iff, hplace]
      exact ⟨fun h => congrArg _ (Except.error.inj h), fun h => congrArg _ (Except.error.inj h)⟩
    | ok placed =>
      obtain ⟨o, sizes'⟩ := placed
      have hnot : ∀ e, ¬ m.FieldEvent target sizes.fill f e := by
        intro e' hevent
        rw [place_eq_error_iff.2 hevent] at hplace
        cases hplace
      obtain ⟨slot, -, -, hfill⟩ := fill_of_place_eq_ok hplace
      rw [firstEvent_cons_of_not hnot, ← hfill, ← ih]
      change (m.placeStatics target fields sizes').bind _ = _ ↔ _
      cases m.placeStatics target fields sizes' with
      | error e' => exact Iff.rfl
      | ok rest => exact iff_of_false nofun nofun

/-! ## Fields that are passed over -/

/-- The field is passed over: it is a literal, or it is not static, or each type that lists it is generic. -/
def PassedOver (m : Module) (f : FieldId) : Prop :=
  (m.flagsOf f).contains .literal = true ∨ (m.flagsOf f).contains .static = false ∨
    ∀ t, f ∈ m.fieldsOf t → m.isGeneric t = true

/-- The module with another signature for one field. -/
def withSignature (m : Module) (f : FieldId) (signature : List UInt8) : Module :=
  m.modifyField f fun field => { field with signature }

/-- A field that is passed over is not visited. -/
theorem PassedOver.not_mem_statics (h : m.PassedOver f) (t : TypeId) : (t, f) ∉ m.statics := by
  intro hvisited
  obtain ⟨-, -, hgeneric, hmem, hstatic, hliteral⟩ := mem_statics.1 hvisited
  rcases h with h | h | h
  · exact Bool.false_ne_true (hliteral.symm.trans h)
  · exact Bool.false_ne_true (h.symm.trans hstatic)
  · exact bne_iff_ne.1 (h t hmem) hgeneric

section WithSignature

variable (m f) (signature : List UInt8)

/-- Another signature for a field leaves everything outside the field table alone. -/
theorem withSignature_frame :
    (m.withSignature f signature).id = m.id ∧
      (m.withSignature f signature).pointerSize = m.pointerSize ∧
      (m.withSignature f signature).types = m.types := by
  unfold withSignature modifyField
  split <;> exact ⟨rfl, rfl, rfl⟩

theorem field?_withSignature (f' : FieldId) :
    (m.withSignature f signature).field? f' =
      if f' = f then (m.field? f).map fun field => { field with signature } else m.field? f' :=
  m.field?_modifyField f f' _

theorem flagsOf_withSignature (f' : FieldId) :
    (m.withSignature f signature).flagsOf f' = m.flagsOf f' := by
  unfold flagsOf
  rw [field?_withSignature]
  by_cases heq : f' = f
  · rw [if_pos heq, heq]
    cases m.field? f <;> rfl
  · rw [if_neg heq]

theorem isThreadStatic_withSignature (f' : FieldId) :
    (m.withSignature f signature).isThreadStatic f' = m.isThreadStatic f' := by
  unfold isThreadStatic fieldHasAttribute
  rw [field?_withSignature]
  by_cases heq : f' = f
  · rw [if_pos heq, heq]
    cases m.field? f <;> rfl
  · rw [if_neg heq]

theorem signatureOf_withSignature_of_ne {f' : FieldId} (h : f' ≠ f) :
    (m.withSignature f signature).signatureOf f' = m.signatureOf f' := by
  unfold signatureOf
  rw [field?_withSignature, if_neg h]

end WithSignature

/-- Which fields are visited is a matter of the types and of the flags. -/
theorem statics_congr {m' : Module} (htypes : m'.types = m.types)
    (hflags : ∀ f, m'.flagsOf f = m.flagsOf f) : m'.statics = m.statics := by
  have htypeIds : m'.typeIds = m.typeIds := by rw [typeIds, typeIds, typeCount, typeCount, htypes]
  have htype : ∀ t, m'.type? t = m.type? t := fun t => by rw [type?, type?, htypes]
  unfold statics staticsOf isGeneric genericParameterCount fieldsOf
  simp only [htypeIds, htype, hflags]

/-- The signature of a field that is passed over has no part in the layout. -/
theorem PassedOver.layout_withSignature (h : m.PassedOver f) (signature : List UInt8)
    (options : LayoutOptions) : (m.withSignature f signature).layout options = m.layout options := by
  obtain ⟨hid, hpointer, htypes⟩ := m.withSignature_frame f signature
  have hcount : (m.withSignature f signature).typeCount = m.typeCount := by
    rw [typeCount, typeCount, htypes]
  refine layout_congr hid hpointer hcount ?_ ?_ options
  · exact statics_congr htypes (m.flagsOf_withSignature f signature)
  · rintro target ⟨t, f'⟩ hvisited
    have hne : f' ≠ f := by
      rintro rfl
      exact h.not_mem_statics t hvisited
    have hslot : (m.withSignature f signature).slotFor target = m.slotFor target :=
      funext (slotFor_congr hcount (fun t _ => isByRefLike_congr htypes _) target)
    simp only [demand, classify, m.signatureOf_withSignature_of_ne f signature hne, hslot,
      m.isThreadStatic_withSignature f signature]

/-! ## The outcome -/

/-- The bytes reserved at the start of a block are too many for a word. -/
def StartOverflows (m : Module) : Prop := ∃ kind, UInt32.size ≤ m.reservedBytes kind

/-- There is a first event when there is one at all. -/
theorem exists_firstEvent_iff :
    (∃ e, m.FirstEvent target fill fields e) ↔ ∃ i e, m.EventAt target fill fields i e := by
  classical
  constructor
  · rintro ⟨e, i, hevent, -⟩
    exact ⟨i, e, hevent⟩
  · intro hevents
    obtain ⟨e, hevent⟩ := Nat.find_spec hevents
    exact ⟨e, Nat.find hevents, hevent, fun j hj e' hearlier => Nat.find_min hevents hj ⟨e', hearlier⟩⟩

/-- References are kept behind no header, so that only the raw blocks can be too large at their start. -/
theorem startOverflows_iff :
    m.StartOverflows ↔
      UInt32.size ≤ m.reservedBytes .nonGc ∨ UInt32.size ≤ m.reservedBytes .threadNonGc := by
  constructor
  · rintro ⟨kind, hkind⟩
    match kind with
    | .gc | .threadGc => exact absurd hkind (Nat.not_succ_le_zero _)
    | .nonGc => exact .inl hkind
    | .threadNonGc => exact .inr hkind
  · rintro (hprocess | hthread)
    · exact ⟨_, hprocess⟩
    · exact ⟨_, hthread⟩

/-- The bytes of a block cannot be reserved when they are too many for a word. -/
theorem reserved_eq_error_iff {options : LayoutOptions}
    (htarget : Target.check m.pointerSize options = .ok target) :
    target.reserved m.typeCount = .error e ↔ m.StartOverflows ∧ e = .overflow := by
  obtain ⟨hpointer, -⟩ := Target.check_eq_ok htarget
  have hheaders := target.toNat_headers
  rw [hpointer] at hheaders
  have hprocess : target.nonGcStart? m.typeCount = none ↔ UInt32.size ≤ m.reservedBytes .nonGc := by
    rw [Target.nonGcStart?, Target.headerPointers, Word.add?_eq_none_iff, hpointer, hheaders.1]
    rfl
  have hthread : target.threadNonGcStart? m.typeCount = none ↔
      UInt32.size ≤ m.reservedBytes .threadNonGc := by
    rw [Target.threadNonGcStart?, Target.threadHeaderPointers, Word.add?_eq_none_iff, hpointer,
      hheaders.2]
    rfl
  rw [Target.reserved_eq_error_iff, hprocess, hthread, startOverflows_iff]

section Outcome

variable {options : LayoutOptions}

/-- Too many reserved bytes are an overflow, before any field is visited. -/
theorem layout_of_startOverflows (htarget : Target.check m.pointerSize options = .ok target)
    (h : m.StartOverflows) : m.layout options = .error .overflow :=
  layout_of_reserved_eq_error htarget ((reserved_eq_error_iff htarget).2 ⟨h, rfl⟩)

/-- When the blocks have a start, the first event of the walk is the outcome. -/
theorem layout_eq_error_iff (htarget : Target.check m.pointerSize options = .ok target)
    (hstarts : ¬ m.StartOverflows) :
    m.layout options = .error e ↔ m.FirstEvent target m.reservedBytes m.statics e := by
  cases hreserved : target.reserved m.typeCount with
  | error e' => exact absurd ((reserved_eq_error_iff htarget).1 hreserved).1 hstarts
  | ok start =>
    have hfill : BlockSizes.fill start = m.reservedBytes :=
      funext (Target.toNat_get_reserved htarget hreserved)
    rw [layout_of_reserved htarget hreserved, bind_eq_error, placeStatics_eq_error_iff, hfill]
    exact or_iff_left fun ⟨_, _, hok⟩ => nomatch hok

/-- An outcome without a layout has one of three causes. -/
theorem layout_eq_error_cases (h : m.layout options = .error e) :
    Target.check m.pointerSize options = .error e ∨ m.StartOverflows ∧ e = .overflow ∨
      ∃ target, Target.check m.pointerSize options = .ok target ∧
        m.FirstEvent target m.reservedBytes m.statics e := by
  cases htarget : Target.check m.pointerSize options with
  | error e' =>
    rw [layout_of_check_eq_error htarget] at h
    exact .inl (congrArg _ (Except.error.inj h))
  | ok target =>
    by_cases hstarts : m.StartOverflows
    · rw [layout_of_startOverflows htarget hstarts] at h
      exact .inr (.inl ⟨hstarts, (Except.error.inj h).symm⟩)
    · exact .inr (.inr ⟨target, rfl, (layout_eq_error_iff htarget hstarts).1 h⟩)

/-- A field that an error names is visited. -/
theorem FirstEvent.exists_mem {defect : FieldDefect}
    (h : m.FirstEvent target fill fields (.field f defect)) : ∃ t, (t, f) ∈ fields := by
  obtain ⟨i, ⟨⟨t, f'⟩, hp, hevent⟩, -⟩ := h
  have hmem := List.mem_of_getElem? hp
  cases hevent with
  | undecodable => exact ⟨t, hmem⟩
  | unplaceable => exact ⟨t, hmem⟩

/-- What happens at a field does not speak of the target. -/
theorem not_firstEvent_unsupportedTarget {pointerSize largestPrimitive : UInt32} :
    ¬ m.FirstEvent target fill fields (.unsupportedTarget pointerSize largestPrimitive) := by
  rintro ⟨i, ⟨p, -, hevent⟩, -⟩
  cases hevent

end Outcome

/-- The outcome of a layout is decided by what happens first. -/
structure DecidedByFirstEvent (m : Module) (options : LayoutOptions) : Prop where
  /-- The target is judged before anything else. -/
  unsupported_iff : (∃ pointerSize largestPrimitive,
    m.layout options = .error (.unsupportedTarget pointerSize largestPrimitive)) ↔
      ∃ e, Target.check m.pointerSize options = .error e
  /-- The outcome of a rejected target is that of its rejection, whatever the module contains. -/
  rejected : ∀ e, Target.check m.pointerSize options = .error e → m.layout options = .error e
  /-- Next come the reserved bytes of the blocks. -/
  start : ∀ target, Target.check m.pointerSize options = .ok target → m.StartOverflows →
    m.layout options = .error .overflow
  /-- Then the fields are visited, up to the first one at which something happens. -/
  error_iff : ∀ target, Target.check m.pointerSize options = .ok target → ¬ m.StartOverflows →
    ∀ e, m.layout options = .error e ↔ m.FirstEvent target m.reservedBytes m.statics e
  /-- There is a layout when nothing happens at all. -/
  ok_iff : (∃ l, m.layout options = .ok l) ↔
    ∃ target, Target.check m.pointerSize options = .ok target ∧ ¬ m.StartOverflows ∧
      ∀ i e, ¬ m.EventAt target m.reservedBytes m.statics i e
  /-- An error that names a field names an eligible one. -/
  eligible : ∀ f defect, m.layout options = .error (.field f defect) → ∃ t, m.Eligible t f
  /-- A field that is passed over has no part in the outcome, whatever its signature. -/
  passedOver : ∀ f, m.PassedOver f → ∀ signature,
    (m.withSignature f signature).layout options = m.layout options

/-- Every module, under all options, has its outcome decided by what happens first. -/
theorem decidedByFirstEvent (m : Module) (options : LayoutOptions) :
    m.DecidedByFirstEvent options := by
  refine ⟨?unsupported_iff, fun e => layout_of_check_eq_error, fun target => layout_of_startOverflows,
    fun target htarget hstarts e => layout_eq_error_iff htarget hstarts, ?ok_iff, ?eligible,
    fun f hf signature => hf.layout_withSignature signature options⟩
  case unsupported_iff =>
    constructor
    · rintro ⟨pointerSize, largestPrimitive, h⟩
      rcases layout_eq_error_cases h with hcheck | ⟨-, hoverflow⟩ | ⟨target, -, hfirst⟩
      · exact ⟨_, hcheck⟩
      · cases hoverflow
      · exact absurd hfirst not_firstEvent_unsupportedTarget
    · rintro ⟨e, hcheck⟩
      obtain ⟨-, rfl⟩ := Target.check_eq_error_iff.1 hcheck
      exact ⟨_, _, layout_of_check_eq_error hcheck⟩
  case ok_iff =>
    constructor
    · rintro ⟨l, hl⟩
      have hnone : ∀ e, m.layout options ≠ .error e := by
        rintro e h
        cases hl.symm.trans h
      obtain ⟨target, -, -, htarget, -⟩ := layout_eq_ok hl
      have hstarts : ¬ m.StartOverflows := fun h => hnone _ (layout_of_startOverflows htarget h)
      refine ⟨target, htarget, hstarts, fun i e hevent => ?_⟩
      obtain ⟨e', hfirst⟩ := exists_firstEvent_iff.2 ⟨i, e, hevent⟩
      exact hnone e' ((layout_eq_error_iff htarget hstarts).2 hfirst)
    · rintro ⟨target, htarget, hstarts, hnone⟩
      cases h : m.layout options with
      | ok l => exact ⟨l, rfl⟩
      | error e =>
        obtain ⟨i, hevent, -⟩ := (layout_eq_error_iff htarget hstarts).1 h
        exact absurd hevent (hnone i e)
  case eligible =>
    intro f defect h
    rcases layout_eq_error_cases h with hcheck | ⟨-, hoverflow⟩ | ⟨target, -, hfirst⟩
    · cases (Target.check_eq_error_iff.1 hcheck).2
    · cases hoverflow
    · obtain ⟨t, hvisited⟩ := hfirst.exists_mem
      exact ⟨t, mem_statics.1 hvisited⟩

end Module

end StaticStorage
