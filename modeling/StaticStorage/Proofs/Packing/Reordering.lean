import Mathlib.Logic.Equiv.Basic
import StaticStorage.Proofs.Module.Lasting
import StaticStorage.Proofs.Packing.Agreement

/-!
# Declaring fields in another order

Two fields of different types may be declared in either order. Their rows are exchanged by it, and all that is
declared later is declared of the same fields under their new rows, so that the two modules differ in nothing
but these rows. Hence each field keeps its place in the layout.

* `Reordered.declareAll` — two modules that differ in the rows of the fields go on to do so.
* `reordered_addField` — two fields of different types, declared in either order.
* `Reordered.sameLayout` — modules that differ in the rows of the fields have the same layout.
* `sameLayout_build_exchange` — all of this for the modules that two histories build.
* `layoutByStorage_build` — what has a part in a layout, and that the order of the fields of different types has
  none.
-/

namespace StaticStorage

/-- The declaration under other rows for the fields. -/
def Declaration.renameFields (σ : FieldId → FieldId) : Declaration → Declaration
  | type name => type name
  | genericType name parameters => genericType name parameters
  | field owner name flags signature => field owner name flags signature
  | fieldAttribute f attr => fieldAttribute (σ f) attr
  | typeAttribute t attr => typeAttribute t attr

/-- The row of a type under other rows for the fields. -/
def TypeDef.renameFields (σ : FieldId → FieldId) (type : TypeDef) : TypeDef :=
  { type with fields := type.fields.map σ }

/-- A new field of the type is listed under its new row. -/
theorem TypeDef.renameFields_push (σ : FieldId → FieldId) (type : TypeDef) (f : FieldId) :
    renameFields σ { type with fields := type.fields.push f } =
      { type.renameFields σ with fields := (type.renameFields σ).fields.push (σ f) } := by
  simp only [renameFields, Array.map_push]

namespace Module

variable {m m' : Module} {σ : FieldId → FieldId}

/-- The other module has the same types and the same fields, but the fields have other rows. -/
structure Reordered (σ : FieldId → FieldId) (m m' : Module) : Prop where
  id_eq : m'.id = m.id
  pointerSize_eq : m'.pointerSize = m.pointerSize
  size_types_eq : m'.types.size = m.types.size
  size_fields_eq : m'.fields.size = m.fields.size
  type?_eq : ∀ t, m'.type? t = (m.type? t).map (TypeDef.renameFields σ)
  field?_eq : ∀ f, m'.field? (σ f) = m.field? f

/-- Rows that are not taken keep their names. -/
def FixesFree (m : Module) (σ : FieldId → FieldId) : Prop :=
  ∀ f : FieldId, m.fields.size < f.row.toNat → σ f = f

/-- As long as the table is not full, the next row keeps its name. -/
theorem FixesFree.next_eq (h : m.FixesFree σ) (hsize : m.fields.size + 1 < UInt32.size) :
    σ ⟨Word.clamp (m.fields.size + 1)⟩ = ⟨Word.clamp (m.fields.size + 1)⟩ := by
  apply h
  rw [toNat_clamp_succ hsize]
  exact Nat.lt_succ_self _

/-! ## Declarations -/

namespace Reordered

section Changes

variable (h : Reordered σ m m')
include h

theorem addType (name : QualifiedName) (parameters : UInt32) :
    Reordered σ (m.addType name parameters) (m'.addType name parameters) where
  id_eq := h.id_eq
  pointerSize_eq := h.pointerSize_eq
  size_types_eq := by rw [Module.addType, Module.addType, Array.size_push, Array.size_push, h.size_types_eq]
  size_fields_eq := h.size_fields_eq
  type?_eq t := by
    rw [type?_addType, type?_addType, h.size_types_eq, h.type?_eq]
    split
    · simp [TypeDef.renameFields]
    · rfl
  field?_eq := h.field?_eq

/-- The same change may be made to a type of both modules, if it does not ask for the rows of its fields. -/
theorem modifyType (t : TypeId) {change change' : TypeDef → TypeDef}
    (hchange : ∀ type, change' (type.renameFields σ) = (change type).renameFields σ) :
    Reordered σ (m.modifyType t change) (m'.modifyType t change') where
  id_eq := by rw [(m'.modifyType_frame t _).1, (m.modifyType_frame t _).1, h.id_eq]
  pointerSize_eq := by rw [(m'.modifyType_frame t _).2, (m.modifyType_frame t _).2, h.pointerSize_eq]
  size_types_eq := by rw [size_types_modifyType, size_types_modifyType, h.size_types_eq]
  size_fields_eq := by rw [fields_modifyType, fields_modifyType, h.size_fields_eq]
  type?_eq t' := by
    rw [type?_modifyType, type?_modifyType, h.type?_eq, h.type?_eq]
    split
    · rw [Option.map_map, Option.map_map]
      exact congrArg (Option.map · (m.type? t)) (funext hchange)
    · rfl
  field?_eq f := by rw [field?_modifyType, field?_modifyType, h.field?_eq]

/-- The same change may be made to a field of both modules. -/
theorem modifyField (hσ : Function.Injective σ) (f : FieldId) (change : FieldDef → FieldDef) :
    Reordered σ (m.modifyField f change) (m'.modifyField (σ f) change) where
  id_eq := by rw [(m'.modifyField_frame _ _).1, (m.modifyField_frame _ _).1, h.id_eq]
  pointerSize_eq := by rw [(m'.modifyField_frame _ _).2, (m.modifyField_frame _ _).2, h.pointerSize_eq]
  size_types_eq := by rw [types_modifyField, types_modifyField, h.size_types_eq]
  size_fields_eq := by rw [size_fields_modifyField, size_fields_modifyField, h.size_fields_eq]
  type?_eq t := by rw [type?_modifyField, type?_modifyField, h.type?_eq]
  field?_eq f' := by
    rw [field?_modifyField, field?_modifyField, h.field?_eq, h.field?_eq]
    simp only [hσ.eq_iff]

/-- The same field may be added to both field tables, where it gets the same row. -/
theorem pushField (hσ : Function.Injective σ) (hfree : m.FixesFree σ)
    (hsize : m.fields.size + 1 < UInt32.size) (field : FieldDef) :
    Reordered σ { m with fields := m.fields.push field } { m' with fields := m'.fields.push field } where
  id_eq := h.id_eq
  pointerSize_eq := h.pointerSize_eq
  size_types_eq := h.size_types_eq
  size_fields_eq := by rw [Array.size_push, Array.size_push, h.size_fields_eq]
  type?_eq := h.type?_eq
  field?_eq f := by
    have hrow : σ f = ⟨Word.clamp (m.fields.size + 1)⟩ ↔ f = ⟨Word.clamp (m.fields.size + 1)⟩ := by
      constructor
      · intro hf
        exact hσ (hf.trans (hfree.next_eq hsize).symm)
      · rintro rfl
        exact hfree.next_eq hsize
    rw [field?_pushField_of_lt hsize, field?_pushField_of_lt (h.size_fields_eq ▸ hsize), h.size_fields_eq,
      h.field?_eq]
    simp only [hrow]

/-- The same field may be declared of both modules. -/
theorem addField (hσ : Function.Injective σ) (hfree : m.FixesFree σ) (owner : TypeId) (name : String)
    (flags : FieldFlags) (signature : List UInt8)
    (hsize : (m.addField owner name flags signature).fields.size < UInt32.size) :
    Reordered σ (m.addField owner name flags signature) (m'.addField owner name flags signature) := by
  have hexists : (m'.type? owner).isSome = (m.type? owner).isSome := by
    rw [h.type?_eq, Option.isSome_map]
  cases howner : (m.type? owner).isSome with
  | false =>
    rw [addField_of_isSome_eq_false howner, addField_of_isSome_eq_false (hexists.trans howner)]
    exact h
  | true =>
    rw [size_fields_addField howner] at hsize
    rw [addField_of_isSome howner, addField_of_isSome (hexists.trans howner)]
    refine (h.pushField hσ hfree hsize _).modifyType owner fun type => ?_
    simp only [TypeDef.renameFields, Array.map_push, hfree.next_eq hsize, h.size_fields_eq]

/-- Modules that differ in the rows of the fields go on to do so when the same is declared of both. -/
theorem declare (hσ : Function.Injective σ) (hfree : m.FixesFree σ) {d : Declaration}
    (hsize : (m.declare d).fields.size < UInt32.size) :
    Reordered σ (m.declare d) (m'.declare (d.renameFields σ)) := by
  match d with
  | .type name => exact h.addType name 0
  | .genericType name parameters => exact h.addType name parameters
  | .field owner name flags signature => exact h.addField hσ hfree owner name flags signature hsize
  | .fieldAttribute f attr => exact h.modifyField hσ f _
  | .typeAttribute t attr => exact h.modifyType t fun type => rfl

end Changes

/-- Modules that differ in the rows of the fields go on to do so, whatever else is declared of both. -/
theorem declareAll (h : Reordered σ m m') (hσ : Function.Injective σ)
    (hfree : m.FixesFree σ) {history : List Declaration}
    (hsize : (m.declareAll history).fields.size < UInt32.size) :
    Reordered σ (m.declareAll history) (m'.declareAll (history.map (Declaration.renameFields σ))) := by
  induction history generalizing m m' with
  | nil => exact h
  | cons d rest ih =>
    have hnext := Nat.lt_of_le_of_lt (size_le_declareAll (m.declare d) rest).2 hsize
    have hgrown := size_fields_le_declare m d
    exact ih (h.declare hσ hfree hnext) (fun f hf => hfree f (Nat.lt_of_le_of_lt hgrown hf)) hsize

/-! ## Layouts -/

section Layouts

variable (h : Reordered σ m m')
include h

theorem typeCount_eq : m'.typeCount = m.typeCount := by
  rw [typeCount, typeCount, h.size_types_eq]

theorem isGeneric_eq (t : TypeId) : m'.isGeneric t = m.isGeneric t := by
  unfold isGeneric genericParameterCount
  rw [h.type?_eq]
  cases m.type? t <;> rfl

theorem isByRefLike_eq (handle : TypeHandle) : m'.isByRefLike handle = m.isByRefLike handle := by
  unfold isByRefLike typeHasAttribute
  rw [resolveType?_congr h.typeCount_eq]
  cases m.resolveType? handle with
  | none => rfl
  | some t =>
    dsimp only
    rw [h.type?_eq]
    cases m.type? t <;> rfl

/-- A type has the same statics, under their new rows. -/
theorem staticsOf_eq (t : TypeId) : m'.staticsOf t = (m.staticsOf t).map σ := by
  have hfields : m'.fieldsOf t = (m.fieldsOf t).map σ := by
    rw [fieldsOf_eq_elim, fieldsOf_eq_elim, h.type?_eq]
    cases m.type? t with
    | none => rfl
    | some type => exact Array.toList_map
  unfold staticsOf
  rw [hfields, List.filter_map]
  congr 1
  refine List.filter_congr fun f _ => ?_
  dsimp only [Function.comp_apply]
  rw [flagsOf, flagsOf, h.field?_eq]

theorem statics_eq : m'.statics = m.statics.map fun p => (p.1, σ p.2) := by
  have htypes : m'.typeIds = m.typeIds := by rw [typeIds, typeIds, h.typeCount_eq]
  unfold statics
  rw [List.map_flatMap, htypes]
  refine List.flatMap_congr fun t _ => ?_
  rw [h.isGeneric_eq, h.staticsOf_eq]
  split
  · rfl
  · rw [List.map_map, List.map_map]
    rfl

/-- A field demands the same under its new row. -/
theorem demand_eq (target : Target) (f : FieldId) :
    m'.demand target (σ f) = (m.demand target f).mapError (LayoutError.rename σ) := by
  refine demand_rename ?_ ?_ (slotFor_congr h.typeCount_eq (fun t _ => h.isByRefLike_eq _) target)
  · rw [signatureOf, signatureOf, h.field?_eq]
  · rw [isThreadStatic, isThreadStatic, fieldHasAttribute, fieldHasAttribute, h.field?_eq]

/-- Modules that differ in the rows of the fields have the same layout. -/
theorem sameLayout (hσ : Function.Injective σ) : m.SameLayout m' σ := by
  have hlayout := layout_rename σ h.id_eq h.pointerSize_eq h.typeCount_eq h.statics_eq
    fun target p _ => h.demand_eq target p.2
  exact ⟨fun t _ _ => h.staticsOf_eq t, hσ.injOn, hlayout, places_eq_of_layout_eq hlayout⟩

end Layouts

end Reordered

/-! ## Two fields in either order -/

/-- The exchange of the next two rows. -/
def exchange (m : Module) : FieldId → FieldId :=
  Equiv.swap ⟨Word.clamp (m.fields.size + 1)⟩ ⟨Word.clamp (m.fields.size + 2)⟩

theorem exchange_first (m : Module) :
    m.exchange ⟨Word.clamp (m.fields.size + 1)⟩ = ⟨Word.clamp (m.fields.size + 2)⟩ :=
  Equiv.swap_apply_left _ _

theorem exchange_second (m : Module) :
    m.exchange ⟨Word.clamp (m.fields.size + 2)⟩ = ⟨Word.clamp (m.fields.size + 1)⟩ :=
  Equiv.swap_apply_right _ _

section Exchange

variable (hsize : m.fields.size + 2 < UInt32.size)
include hsize

/-- Rows that are neither of the next two are not exchanged. -/
theorem exchange_eq_self {f : FieldId}
    (hf : f.row.toNat ≤ m.fields.size ∨ m.fields.size + 2 < f.row.toNat) : m.exchange f = f := by
  have hfirst : (Word.clamp (m.fields.size + 1)).toNat = m.fields.size + 1 := toNat_clamp_succ (by omega)
  have hsecond : (Word.clamp (m.fields.size + 2)).toNat = m.fields.size + 2 := toNat_clamp_succ hsize
  apply Equiv.swap_apply_of_ne_of_ne
  · rintro rfl
    rw [hfirst] at hf
    omega
  · rintro rfl
    rw [hsecond] at hf
    omega

/-- A type that lists none of the next two rows is as it was. -/
theorem Numbered.renameFields_exchange (hm : m.Numbered) {t : TypeId} {type : TypeDef}
    (htype : m.type? t = some type) : type.renameFields m.exchange = type := by
  have hlisted : ∀ f ∈ type.fields.toList, m.exchange f = f := by
    intro f hf
    have hmem : f ∈ m.fieldsOf t := by
      rw [fieldsOf_eq_elim, htype]
      exact hf
    exact exchange_eq_self hsize (.inl (hm.row_le_size hmem))
  have hfields : type.fields.map m.exchange = type.fields := by
    rw [← Array.toList_inj, Array.toList_map]
    exact (List.map_congr_left hlisted).trans (List.map_id _)
  rw [TypeDef.renameFields, hfields]

variable {a b : TypeId} (hab : a ≠ b) (ha : (m.type? a).isSome) (hb : (m.type? b).isSome)

omit hsize in
include hab ha hb in
/-- A type goes on existing when a field of another one is added. -/
theorem isSome_type?_addField (name : String) (flags : FieldFlags) (signature : List UInt8) :
    ((m.addField a name flags signature).type? b).isSome := by
  rw [type?_addField ha, if_neg hab.symm]
  exact hb

omit hsize in
include hab ha hb in
/-- Of two new fields of different types, the first takes the next row and the second the one behind it. -/
theorem type?_addField_addField (name name' : String) (flags flags' : FieldFlags)
    (signature signature' : List UInt8) (t : TypeId) :
    ((m.addField a name flags signature).addField b name' flags' signature').type? t =
      if t = a then (m.type? a).map fun type =>
        { type with fields := type.fields.push ⟨Word.clamp (m.fields.size + 1)⟩ }
      else if t = b then (m.type? b).map fun type =>
        { type with fields := type.fields.push ⟨Word.clamp (m.fields.size + 2)⟩ }
      else m.type? t := by
  rw [type?_addField (isSome_type?_addField hab ha hb name flags signature), type?_addField ha,
    type?_addField ha, if_neg hab.symm, size_fields_addField ha]
  by_cases hta : t = a
  · subst hta
    rw [if_neg hab, if_pos rfl, if_pos rfl]
  · rw [if_neg hta, if_neg hta]

include hab ha hb in
/-- Both new fields are found under the rows that they took. -/
theorem field?_addField_addField (name name' : String) (flags flags' : FieldFlags)
    (signature signature' : List UInt8) (f : FieldId) :
    ((m.addField a name flags signature).addField b name' flags' signature').field? f =
      if f = ⟨Word.clamp (m.fields.size + 2)⟩ then some ⟨name', flags', signature', []⟩
      else if f = ⟨Word.clamp (m.fields.size + 1)⟩ then some ⟨name, flags, signature, []⟩
      else m.field? f := by
  have hgrown := size_fields_addField ha name flags signature
  rw [field?_addField (isSome_type?_addField hab ha hb name flags signature) (by omega),
    field?_addField ha (by omega), hgrown]

include hab ha hb in
/-- Two fields of different types may be declared in either order, but for the rows that they get. -/
theorem Numbered.reordered_addField (hm : m.Numbered) (name name' : String) (flags flags' : FieldFlags)
    (signature signature' : List UInt8) :
    Reordered m.exchange
      ((m.addField a name flags signature).addField b name' flags' signature')
      ((m.addField b name' flags' signature').addField a name flags signature) := by
  obtain ⟨hid, hpointer, htypes⟩ := m.addField_frame a name flags signature
  obtain ⟨hid', hpointer', htypes'⟩ := m.addField_frame b name' flags' signature'
  refine ⟨?id_eq, ?pointerSize_eq, ?size_types_eq, ?size_fields_eq, fun t => ?type?_eq, fun f => ?field?_eq⟩
  case id_eq =>
    exact ((addField_frame _ _ _ _ _).1.trans hid').trans ((addField_frame _ _ _ _ _).1.trans hid).symm
  case pointerSize_eq =>
    exact ((addField_frame _ _ _ _ _).2.1.trans hpointer').trans
      ((addField_frame _ _ _ _ _).2.1.trans hpointer).symm
  case size_types_eq =>
    exact ((addField_frame _ _ _ _ _).2.2.trans htypes').trans
      ((addField_frame _ _ _ _ _).2.2.trans htypes).symm
  case size_fields_eq =>
    rw [size_fields_addField (isSome_type?_addField hab.symm hb ha ..), size_fields_addField hb,
      size_fields_addField (isSome_type?_addField hab ha hb ..), size_fields_addField ha]
  case type?_eq =>
    rw [type?_addField_addField hab.symm hb ha, type?_addField_addField hab ha hb]
    have hkept : ∀ {t type}, m.type? t = some type → type.renameFields m.exchange = type :=
      hm.renameFields_exchange hsize
    by_cases hta : t = a
    · subst hta
      obtain ⟨type, htype⟩ := Option.isSome_iff_exists.1 ha
      rw [if_neg hab, if_pos rfl, if_pos rfl, htype, Option.map_some, Option.map_some, Option.map_some,
        TypeDef.renameFields_push, hkept htype, exchange_first]
    · by_cases htb : t = b
      · subst htb
        obtain ⟨type, htype⟩ := Option.isSome_iff_exists.1 hb
        rw [if_pos rfl, if_neg hta, if_pos rfl, htype, Option.map_some, Option.map_some, Option.map_some,
          TypeDef.renameFields_push, hkept htype, exchange_second]
      · rw [if_neg htb, if_neg hta, if_neg hta, if_neg htb]
        cases htype : m.type? t with
        | none => rfl
        | some type => rw [Option.map_some, hkept htype]
  case field?_eq =>
    rw [field?_addField_addField hsize hab.symm hb ha, field?_addField_addField hsize hab ha hb]
    have hne : (⟨Word.clamp (m.fields.size + 1)⟩ : FieldId) ≠ ⟨Word.clamp (m.fields.size + 2)⟩ := by
      intro heq
      have hrows := congrArg (fun f : FieldId => f.row.toNat) heq
      dsimp only at hrows
      rw [toNat_clamp_succ (by omega), toNat_clamp_succ hsize] at hrows
      omega
    by_cases hf : f = ⟨Word.clamp (m.fields.size + 1)⟩
    · rw [hf, exchange_first, if_pos rfl, if_neg hne, if_pos rfl]
    · by_cases hf' : f = ⟨Word.clamp (m.fields.size + 2)⟩
      · rw [hf', exchange_second, if_neg hne, if_pos rfl, if_pos rfl]
      · have hself : m.exchange f = f := Equiv.swap_apply_of_ne_of_ne hf hf'
        rw [hself, if_neg hf', if_neg hf, if_neg hf', if_neg hf]

end Exchange

/-! ## Histories -/

/-- Two fields that are declared one after the other, of different types, may be declared in either order, and
each keeps its place in the layout: later declarations are made of the same fields under their new rows. -/
theorem sameLayout_build_exchange {id : ModuleId} {pointerSize : UInt32} {before after : List Declaration}
    {a b : TypeId} {name name' : String} {flags flags' : FieldFlags} {signature signature' : List UInt8}
    (hab : a ≠ b) (ha : ((build id pointerSize before).type? a).isSome)
    (hb : ((build id pointerSize before).type? b).isSome)
    (hsize : (build id pointerSize (before ++ .field a name flags signature ::
      .field b name' flags' signature' :: after)).fields.size < UInt32.size) :
    (build id pointerSize (before ++ .field a name flags signature ::
        .field b name' flags' signature' :: after)).SameLayout
      (build id pointerSize (before ++ .field b name' flags' signature' :: .field a name flags signature ::
        after.map (Declaration.renameFields (build id pointerSize before).exchange)))
      (build id pointerSize before).exchange := by
  have hb' := isSome_type?_addField hab ha hb name flags signature
  have hboth : (((build id pointerSize before).addField a name flags signature).addField b name' flags'
      signature').fields.size = (build id pointerSize before).fields.size + 2 := by
    rw [size_fields_addField hb', size_fields_addField ha]
  rw [build_append] at hsize ⊢
  rw [build_append]
  -- the table fits at the end, and so it does after the two fields
  have hfits := Nat.lt_of_le_of_lt (size_le_declareAll (((build id pointerSize before).addField a name flags
    signature).addField b name' flags' signature') after).2 hsize
  rw [hboth] at hfits
  have hm : (build id pointerSize before).Numbered := numbered_build (by omega)
  have hσ : Function.Injective (build id pointerSize before).exchange := Equiv.injective _
  have hreordered := hm.reordered_addField hfits hab ha hb name name' flags flags' signature signature'
  refine (hreordered.declareAll hσ (fun f hf => ?_) hsize).sameLayout hσ
  rw [hboth] at hf
  exact exchange_eq_self hfits (.inr hf)

/-! ## What has no part in a layout -/

/-- The layout of a module follows from what storage needs of the module. -/
structure LayoutByStorage (m : Module) : Prop where
  /-- A module that was built otherwise, but agrees in this, has the same layout or fails for the same reason. -/
  sameLayout : ∀ (id : ModuleId) (pointerSize : UInt32) (history : List Declaration),
    (build id pointerSize history).fields.size < UInt32.size → m.SameStorage (build id pointerSize history) →
      m.SameLayout (build id pointerSize history) (m.counterpart (build id pointerSize history))
  /-- So has the module for which two fields of different types were declared in the other order. -/
  exchange : ∀ (id : ModuleId) (pointerSize : UInt32) (before after : List Declaration) (a b : TypeId)
    (name name' : String) (flags flags' : FieldFlags) (signature signature' : List UInt8),
    m = build id pointerSize (before ++ .field a name flags signature ::
      .field b name' flags' signature' :: after) →
    a ≠ b → ((build id pointerSize before).type? a).isSome → ((build id pointerSize before).type? b).isSome →
      m.SameLayout
        (build id pointerSize (before ++ .field b name' flags' signature' :: .field a name flags signature ::
          after.map (Declaration.renameFields (build id pointerSize before).exchange)))
        (build id pointerSize before).exchange

/-- Of a module that was built by declarations, and whose fields fit their table, nothing has a part in the layout
but what storage needs, and the order in which different types are given their fields has none. -/
theorem layoutByStorage_build {id : ModuleId} {pointerSize : UInt32} {history : List Declaration}
    (hsize : (build id pointerSize history).fields.size < UInt32.size) :
    (build id pointerSize history).LayoutByStorage where
  sameLayout _ _ _ hsize' h := sameLayout_build hsize hsize' h
  exchange id' pointerSize' before after a b name name' flags flags' signature signature' hm hab ha hb := by
    rw [hm] at hsize ⊢
    exact sameLayout_build_exchange hab ha hb hsize

end Module

/-- The types of `sparseModule`. -/
def sparseTypes : List Declaration :=
  [.genericType ⟨"App", "Pool"⟩ 1, .type ⟨"App", "Node"⟩, .type ⟨"App", "Limits"⟩]

/-- The fields of `sparseModule` behind the first two. -/
def sparseFields : List Declaration := [
  .field ⟨1⟩ "shared" .static [],
  .field ⟨3⟩ "count" .static [0x06, 0x08],
  .field ⟨2⟩ "next" .none [0x06, 0x12, 0x08],
  .field ⟨2⟩ "total" .static [0x06, 0x0A]]

/-- The module `sparseModule` with its first two fields declared in the other order. -/
def exchangedModule : Module :=
  .build ⟨3⟩ 4 (sparseTypes ++ .field ⟨2⟩ "first" .static [0x06, 0x12, 0x08] ::
    .field ⟨3⟩ "largest" ⟨0x50⟩ [0x06] :: sparseFields)

theorem Module.layoutByStorage_build_sparseModule :
    sparseModule.fields.size < UInt32.size ∧ sparseModule.LayoutByStorage ∧
      sparseModule.SameStorage reorderedModule ∧
      sparseModule.SameLayout reorderedModule (sparseModule.counterpart reorderedModule) ∧
      sparseModule.SameLayout exchangedModule (build ⟨3⟩ 4 sparseTypes).exchange := by
  have hsize : sparseModule.fields.size < UInt32.size := by decide
  have hlayout : sparseModule.LayoutByStorage := layoutByStorage_build hsize
  refine ⟨hsize, hlayout, .sparseModule_reorderedModule,
    hlayout.sameLayout _ _ _ (by decide) .sparseModule_reorderedModule, ?_⟩
  exact hlayout.exchange ⟨3⟩ 4 sparseTypes sparseFields ⟨3⟩ ⟨2⟩ "largest" "first" ⟨0x50⟩ .static [0x06]
    [0x06, 0x12, 0x08] rfl (by decide) (by decide) (by decide)

end StaticStorage
