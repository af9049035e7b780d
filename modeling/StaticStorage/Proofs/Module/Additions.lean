import StaticStorage.Proofs.Module.Lasting
import StaticStorage.Proofs.Packing.Placements
import StaticStorage.Proofs.Packing.SlotRules

/-!
# Additions to one type

Whatever is added to one type, be it fields, attributes of these fields or attributes of the type, leaves all
other types and all earlier fields as they were. If fields are all that is added, the type itself changes in
its list of fields only, which goes on behind what it was.

* `agreesOutside_declareAll` — additions to one type leave everything else as it was.
* `AgreesOutside.visits_eq`, `AgreesOutside.demand_eq` — so the walk does at the other types what it did.
* `exists_statics_eq_append` — further fields of the last type are visited behind all others.
-/

namespace StaticStorage

/-! ## Declarations that add to a type -/

/-- The declaration adds to the fields of the type: it declares one, or gives an attribute to a field behind
the first so many. -/
inductive Declaration.AddsField (t : TypeId) (rows : ℕ) : Declaration → Prop
  | field (name : String) (flags : FieldFlags) (signature : List UInt8) :
    AddsField t rows (.field t name flags signature)
  | fieldAttribute {f : FieldId} (h : rows < f.row.toNat) (attr : QualifiedName) :
    AddsField t rows (.fieldAttribute f attr)

/-- The declaration adds to the type: to its fields, or to its attributes. -/
inductive Declaration.AddsTo (t : TypeId) (rows : ℕ) : Declaration → Prop
  | ofField {d : Declaration} (h : d.AddsField t rows) : AddsTo t rows d
  | typeAttribute (attr : QualifiedName) : AddsTo t rows (.typeAttribute t attr)

/-- The row of a type but for its fields. -/
def TypeDef.withoutFields (type : TypeDef) : TypeDef := { type with fields := #[] }

namespace Module

variable {m m' m'' : Module} {t t' : TypeId} {rows : ℕ} {d : Declaration} {more : List Declaration}

/-- The modules differ in one type at most, and in the fields behind the first so many. -/
structure AgreesOutside (t : TypeId) (rows : ℕ) (m m' : Module) : Prop where
  id_eq : m'.id = m.id
  pointerSize_eq : m'.pointerSize = m.pointerSize
  type?_eq : ∀ t', t' ≠ t → m'.type? t' = m.type? t'
  field?_eq : ∀ f : FieldId, f.row.toNat ≤ rows → m'.field? f = m.field? f

theorem AgreesOutside.refl (t : TypeId) (rows : ℕ) (m : Module) : m.AgreesOutside t rows m :=
  ⟨rfl, rfl, fun _ _ => rfl, fun _ _ => rfl⟩

theorem AgreesOutside.trans (h : m.AgreesOutside t rows m') (h' : m'.AgreesOutside t rows m'') :
    m.AgreesOutside t rows m'' where
  id_eq := h'.id_eq.trans h.id_eq
  pointerSize_eq := h'.pointerSize_eq.trans h.pointerSize_eq
  type?_eq t' ht := (h'.type?_eq t' ht).trans (h.type?_eq t' ht)
  field?_eq f hf := (h'.field?_eq f hf).trans (h.field?_eq f hf)

/-- A new type leaves everything else as it was. -/
theorem agreesOutside_addType (m : Module) (name : QualifiedName) (parameters : UInt32) (rows : ℕ)
    (hsize : m.types.size + 1 < UInt32.size) :
    m.AgreesOutside ⟨Word.clamp (m.types.size + 1)⟩ rows (m.addType name parameters) where
  id_eq := rfl
  pointerSize_eq := rfl
  type?_eq t' ht := by
    rw [type?_addType, if_neg]
    rintro ⟨hnil, hindex⟩
    apply ht
    rw [isNil_eq_false_iff] at hnil
    have hrow := toNat_clamp_succ hsize
    unfold TypeId.index at hindex
    exact congrArg TypeId.mk (UInt32.toNat_inj.1 (by omega))
  field?_eq _ _ := rfl

/-- Everything that the declaration of a type does: the type takes the next row, and everything else is left as
it was. -/
theorem agreesOutside_declare_of_declaredRow (hd : m.declaredRow d = .type t)
    (hsize : (m.declare d).types.size < UInt32.size) (rows : ℕ) :
    t = ⟨Word.clamp (m.types.size + 1)⟩ ∧ (m.declare d).types.size = m.types.size + 1 ∧
      (m.declare d).fields.size = m.fields.size ∧ m.AgreesOutside t rows (m.declare d) := by
  match d with
  | .type name =>
    cases hd
    have hgrown : (m.addType name 0).types.size = m.types.size + 1 := Array.size_push _
    exact ⟨rfl, hgrown, rfl, m.agreesOutside_addType name 0 rows (hgrown ▸ hsize)⟩
  | .genericType name parameters =>
    cases hd
    have hgrown : (m.addType name parameters).types.size = m.types.size + 1 := Array.size_push _
    exact ⟨rfl, hgrown, rfl, m.agreesOutside_addType name parameters rows (hgrown ▸ hsize)⟩
  | .field .. | .fieldAttribute .. | .typeAttribute .. => cases hd

/-- An addition to a type leaves everything else as it was. -/
theorem agreesOutside_declare (hd : d.AddsTo t rows) (hrows : rows ≤ m.fields.size)
    (hsize : (m.declare d).fields.size < UInt32.size) : m.AgreesOutside t rows (m.declare d) := by
  match d, hd with
  | .field _ name flags signature, .ofField (.field ..) =>
    rw [declare] at hsize ⊢
    cases ht : (m.type? t).isSome with
    | false =>
      rw [addField_of_isSome_eq_false ht]
      exact .refl t rows m
    | true =>
      rw [size_fields_addField ht] at hsize
      obtain ⟨hid, hpointer, -⟩ := m.addField_frame t name flags signature
      refine ⟨hid, hpointer, fun t' hne => ?_, fun f hf => ?_⟩
      · rw [type?_addField ht, if_neg hne]
      · rw [field?_addField ht hsize, if_neg]
        rintro rfl
        rw [toNat_clamp_succ hsize] at hf
        omega
  | .fieldAttribute f attr, .ofField (.fieldAttribute hf _) =>
    obtain ⟨hid, hpointer⟩ := m.modifyField_frame f
      fun field => { field with attributes := field.attributes.insert attr }
    refine ⟨hid, hpointer, fun t' _ => m.type?_modifyField f _ t', fun f' hf' => ?_⟩
    refine (m.field?_modifyField f f' _).trans (if_neg ?_)
    rintro rfl
    omega
  | .typeAttribute _ attr, .typeAttribute _ =>
    obtain ⟨hid, hpointer⟩ := m.modifyType_frame t
      fun type => { type with attributes := type.attributes.insert attr }
    exact ⟨hid, hpointer, fun t' hne => (m.type?_modifyType t t' _).trans (if_neg hne),
      fun f _ => m.field?_modifyType t _ f⟩

/-- An addition to a type is no new type. -/
theorem size_types_declare_of_addsTo (hd : d.AddsTo t rows) :
    (m.declare d).types.size = m.types.size := by
  match d, hd with
  | .field _ name flags signature, .ofField (.field ..) => exact (m.addField_frame t name flags signature).2.2
  | .fieldAttribute f _, .ofField (.fieldAttribute ..) => exact congrArg Array.size (m.types_modifyField f _)
  | .typeAttribute _ _, .typeAttribute _ => exact m.size_types_modifyType t _

/-- A further field changes a type in its list of fields only. -/
theorem withoutFields_declare (hd : d.AddsField t rows) (t' : TypeId) :
    ((m.declare d).type? t').map TypeDef.withoutFields = (m.type? t').map TypeDef.withoutFields := by
  cases hd with
  | field name flags signature =>
    rw [declare]
    cases ht : (m.type? t).isSome with
    | false => rw [addField_of_isSome_eq_false ht]
    | true =>
      rw [type?_addField ht]
      by_cases heq : t' = t
      · rw [if_pos heq, heq, Option.map_map]
        rfl
      · rw [if_neg heq]
  | fieldAttribute => rw [declare, addFieldAttribute, type?_modifyField]

/-- Additions to a type leave everything else as it was. -/
theorem agreesOutside_declareAll (hmore : ∀ d ∈ more, d.AddsTo t rows) (hrows : rows ≤ m.fields.size)
    (hsize : (m.declareAll more).fields.size < UInt32.size) :
    m.AgreesOutside t rows (m.declareAll more) := by
  induction more generalizing m with
  | nil => exact .refl t rows m
  | cons d rest ih =>
    have hnext := Nat.lt_of_le_of_lt (size_le_declareAll (m.declare d) rest).2 hsize
    have hgrown := size_fields_le_declare m d
    exact (agreesOutside_declare (hmore d List.mem_cons_self) hrows hnext).trans
      (ih (fun d' hd' => hmore d' (List.mem_cons_of_mem d hd')) (by omega) hsize)

/-- Additions to a type are no new types. -/
theorem size_types_declareAll_of_addsTo (hmore : ∀ d ∈ more, d.AddsTo t rows) :
    (m.declareAll more).types.size = m.types.size := by
  induction more generalizing m with
  | nil => rfl
  | cons d rest ih =>
    exact (ih fun d' hd' => hmore d' (List.mem_cons_of_mem d hd')).trans
      (size_types_declare_of_addsTo (hmore d List.mem_cons_self))

/-- Further fields change the types in their lists of fields only. -/
theorem withoutFields_declareAll (hmore : ∀ d ∈ more, d.AddsField t rows) (t' : TypeId) :
    ((m.declareAll more).type? t').map TypeDef.withoutFields =
      (m.type? t').map TypeDef.withoutFields := by
  induction more generalizing m with
  | nil => rfl
  | cons d rest ih =>
    exact (ih fun d' hd' => hmore d' (List.mem_cons_of_mem d hd')).trans
      (withoutFields_declare (hmore d List.mem_cons_self) t')

/-! ## What a walk sees of it -/

section Queries

variable (h : (m'.type? t).map TypeDef.withoutFields = (m.type? t).map TypeDef.withoutFields)
include h

theorem isGeneric_eq_of_withoutFields : m'.isGeneric t = m.isGeneric t := by
  have hcount (m : Module) : m.genericParameterCount t =
      ((m.type? t).map TypeDef.withoutFields).elim 0 (·.genericParameters) := by
    unfold genericParameterCount
    cases m.type? t <;> rfl
  rw [isGeneric, isGeneric, hcount, hcount, h]

theorem typeHasAttribute_eq_of_withoutFields (attr : QualifiedName) :
    m'.typeHasAttribute t attr = m.typeHasAttribute t attr := by
  have hattributes (m : Module) : m.typeHasAttribute t attr =
      ((m.type? t).map TypeDef.withoutFields).elim false (·.attributes.contains attr) := by
    unfold typeHasAttribute
    cases m.type? t <;> rfl
  rw [hattributes, hattributes, h]

end Queries

namespace AgreesOutside

variable (h : m.AgreesOutside t rows m')
include h

theorem flagsOf_eq {f : FieldId} (hf : f.row.toNat ≤ rows) : m'.flagsOf f = m.flagsOf f := by
  rw [flagsOf, flagsOf, h.field?_eq f hf]

/-- An earlier field demands what it did, if its signature gets the slot that it got. -/
theorem demand_eq {f : FieldId} (hf : f.row.toNat ≤ rows) {target : Target}
    (hslot : ∀ s, FieldSignature.decode (m.signatureOf f) = .ok s →
      m'.slotFor target s = m.slotFor target s) :
    m'.demand target f = m.demand target f := by
  unfold demand isThreadStatic fieldHasAttribute
  have hsignature : m'.signatureOf f = m.signatureOf f := by
    rw [signatureOf, signatureOf, h.field?_eq f hf]
  rw [h.field?_eq f hf, hsignature]
  cases hdecode : FieldSignature.decode (m.signatureOf f) with
  | error fault => rfl
  | ok s =>
    change (m'.classify target f s >>= _) = (m.classify target f s >>= _)
    rw [classify, classify, hslot s hdecode]

end AgreesOutside

/-- The fields that a type listed are statics as they were. -/
theorem AgreesOutside.filter_fieldsOf (h : m.AgreesOutside t m.fields.size m') (hm : m.Numbered)
    (t' : TypeId) :
    (m.fieldsOf t').filter (fun f => (m'.flagsOf f).hasStaticStorage) = m.staticsOf t' :=
  List.filter_congr fun f hf => by rw [h.flagsOf_eq (hm.row_le_size hf)]

/-- At another type the same is visited. -/
theorem AgreesOutside.visits_eq (h : m.AgreesOutside t m.fields.size m') (hm : m.Numbered)
    (ht : t' ≠ t) : m'.visits t' = m.visits t' := by
  have hgeneric : m'.isGeneric t' = m.isGeneric t' := by
    rw [isGeneric, isGeneric, genericParameterCount, genericParameterCount, h.type?_eq t' ht]
  have hfields : m'.fieldsOf t' = m.fieldsOf t' := by rw [fieldsOf, fieldsOf, h.type?_eq t' ht]
  rw [visits, visits, hgeneric, staticsOf, hfields, h.filter_fieldsOf hm]

/-- A type goes on to list the fields that it listed, in front of all others. -/
theorem Keeps.prefix_fieldsOf (h : m.Keeps m') (t : TypeId) : m.fieldsOf t <+: m'.fieldsOf t := by
  rw [fieldsOf_eq_elim, fieldsOf_eq_elim]
  cases htype : m.type? t with
  | none => exact List.nil_prefix
  | some type =>
    obtain ⟨type', htype', hkeeps⟩ := h.type htype
    rw [htype']
    exact hkeeps.fields_prefix

/-- What a type lists behind the fields that it listed are new fields. -/
theorem Numbered.lt_of_fieldsOf_eq_append (hm : m.Numbered) (hm' : m'.Numbered) (hkeeps : m.Keeps m')
    {fresh : List FieldId} (hfresh : m'.fieldsOf t = m.fieldsOf t ++ fresh) :
    ∀ f ∈ fresh, m.fields.size < f.row.toNat := by
  intro f hf
  have hlisted : f ∈ m'.fieldsOf t := by
    rw [hfresh]
    exact List.mem_append_right _ hf
  apply Nat.lt_of_not_le
  intro hle
  -- an earlier field has been listed before, and by this type
  obtain ⟨t', hf'⟩ := (hm.exists_owner_iff f).2 ⟨((hm'.exists_owner_iff f).1 ⟨t, hlisted⟩).1, hle⟩
  obtain rfl := hm'.owner_unique hlisted ((hkeeps.prefix_fieldsOf t').mem hf')
  have hascending := hm'.ascending t
  rw [hfresh] at hascending
  exact UInt32.lt_irrefl _ ((List.pairwise_append.1 hascending).2.2 f hf' f hf)

/-! ## The last type -/

/-- The type that was declared last. -/
def lastType (m : Module) : TypeId := ⟨m.typeCount⟩

/-- The last type stands behind all others. -/
theorem typeIds_eq_nil_or_concat (m : Module) :
    m.typeIds = [] ∨ ∃ front, m.typeIds = front ++ [m.lastType] ∧ ∀ t ∈ front, t ≠ m.lastType := by
  unfold typeIds lastType
  cases hcount : m.typeCount.toNat with
  | zero => exact .inl rfl
  | succ n =>
    have hlast : UInt32.ofNat (n + 1) = m.typeCount := by rw [← hcount, UInt32.ofNat_toNat]
    refine .inr ⟨(List.range n).map fun i => ⟨UInt32.ofNat (i + 1)⟩, ?_, fun t ht heq => ?_⟩
    · rw [List.range_succ, List.map_append, List.map_singleton, hlast]
    · obtain ⟨i, hi, rfl⟩ := List.mem_map.1 ht
      have hi := List.mem_range.1 hi
      have hrow := congrArg UInt32.toNat (TypeId.mk.inj heq)
      have hbound := m.typeCount.toNat_lt_size
      rw [hcount, UInt32.toNat_ofNat_of_lt' (by omega)] at hrow
      omega

/-- Further fields of a type are visited behind those that the walk visits there already, and are new. -/
theorem exists_visits_eq_append (hm : m.Numbered) (hm' : m'.Numbered) (hkeeps : m.Keeps m')
    (h : m.AgreesOutside t m.fields.size m') (hgeneric : m'.isGeneric t = m.isGeneric t) :
    ∃ fresh, m'.visits t = m.visits t ++ fresh ∧
      ∀ p ∈ fresh, p.1 = t ∧ m.fields.size < p.2.row.toNat := by
  obtain ⟨added, hadded⟩ := hkeeps.prefix_fieldsOf t
  have hstatics : m'.staticsOf t =
      m.staticsOf t ++ added.filter fun f => (m'.flagsOf f).hasStaticStorage := by
    rw [staticsOf, ← hadded, List.filter_append, h.filter_fieldsOf hm]
  unfold visits
  rw [hgeneric, hstatics]
  cases m.isGeneric t with
  | true => exact ⟨[], rfl, fun p hp => absurd hp List.not_mem_nil⟩
  | false =>
    refine ⟨_, List.map_append, fun p hp => ?_⟩
    obtain ⟨f, hf, rfl⟩ := List.mem_map.1 hp
    exact ⟨rfl, hm.lt_of_fieldsOf_eq_append hm' hkeeps hadded.symm f (List.mem_of_mem_filter hf)⟩

/-- Further fields of the last type are visited behind everything that the walk visits already. -/
theorem exists_statics_eq_append (hm : m.Numbered) (hm' : m'.Numbered) (hkeeps : m.Keeps m')
    (htypes : m'.types.size = m.types.size) (h : m.AgreesOutside m.lastType m.fields.size m')
    (hgeneric : m'.isGeneric m.lastType = m.isGeneric m.lastType) :
    ∃ fresh, m'.statics = m.statics ++ fresh ∧
      ∀ p ∈ fresh, p.1 = m.lastType ∧ m.fields.size < p.2.row.toNat := by
  have htypeIds : m'.typeIds = m.typeIds := by rw [typeIds, typeIds, typeCount, typeCount, htypes]
  rw [statics_eq_flatMap, statics_eq_flatMap, htypeIds]
  rcases m.typeIds_eq_nil_or_concat with hnone | ⟨front, hlast, hfront⟩
  · rw [hnone]
    exact ⟨[], rfl, fun p hp => absurd hp List.not_mem_nil⟩
  · obtain ⟨fresh, hvisits, hfresh⟩ := exists_visits_eq_append hm hm' hkeeps h hgeneric
    have hsame : front.flatMap m'.visits = front.flatMap m.visits :=
      List.flatMap_congr fun t ht => h.visits_eq hm (hfront t ht)
    refine ⟨fresh, ?_, hfresh⟩
    rw [hlast, List.flatMap_append, List.flatMap_append, hsame, List.flatMap_singleton,
      List.flatMap_singleton, hvisits, List.append_assoc]

end Module

end StaticStorage
