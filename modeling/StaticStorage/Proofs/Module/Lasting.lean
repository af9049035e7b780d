import Mathlib.Data.List.Nodup
import StaticStorage.Module.Marker
import StaticStorage.Proofs.Module.Rows

/-!
# What a module keeps of its declarations

A declaration may add a row at the end of one table, may list a new field with its owner, and may change the
attributes of a row. Everything else of a row is there from its declaration on and never changes. So a row
that a declaration returns is the row that it created, and says for ever what was declared.

* `keeps_declare`, `keeps_declareAll` — what one declaration leaves alone, and then any number of them.
* `size_declare` — what a declaration does to the tables, and the row that it returns for it.
* `lacks_declaredRow`, `holds_declare` — the row that a declaration returns is new, and says what was
  declared.
* `filterMap_type?_declaredRows`, `filterMap_field?_declaredRows` — the rows of a table are returned in their
  order.
* `keepsDeclarations_build` — all of this for the module that a history builds.
-/

namespace StaticStorage

/-! ## Rows that keep what was declared -/

/-- The row of a type has the name and the generic parameters that it had, and lists the fields that it
listed in front of all others. -/
structure TypeDef.Keeps (type type' : TypeDef) : Prop where
  name_eq : type'.name = type.name
  genericParameters_eq : type'.genericParameters = type.genericParameters
  fields_prefix : type.fields.toList <+: type'.fields.toList

/-- The row of a field has the name, the flags and the signature that it had. -/
structure FieldDef.Keeps (field field' : FieldDef) : Prop where
  name_eq : field'.name = field.name
  flags_eq : field'.flags = field.flags
  signature_eq : field'.signature = field.signature

theorem TypeDef.Keeps.refl (type : TypeDef) : type.Keeps type := ⟨rfl, rfl, List.prefix_refl _⟩

theorem TypeDef.Keeps.trans {first second third : TypeDef} (h : first.Keeps second)
    (h' : second.Keeps third) : first.Keeps third :=
  ⟨h'.name_eq.trans h.name_eq, h'.genericParameters_eq.trans h.genericParameters_eq,
    h.fields_prefix.trans h'.fields_prefix⟩

theorem FieldDef.Keeps.refl (field : FieldDef) : field.Keeps field := ⟨rfl, rfl, rfl⟩

theorem FieldDef.Keeps.trans {first second third : FieldDef} (h : first.Keeps second)
    (h' : second.Keeps third) : first.Keeps third :=
  ⟨h'.name_eq.trans h.name_eq, h'.flags_eq.trans h.flags_eq, h'.signature_eq.trans h.signature_eq⟩

/-! ## Returned rows -/

/-- The type row that was returned, if it is one. -/
def DeclaredRow.type? : DeclaredRow → Option TypeId
  | type t => some t
  | field _ | none => Option.none

/-- The field row that was returned, if it is one and not nil. -/
def DeclaredRow.field? : DeclaredRow → Option FieldId
  | field f => if f.isNil then Option.none else some f
  | type _ | none => Option.none

namespace Module

variable {m m' m'' : Module}

/-- The other module has every row of this one, and the rows keep what was declared. -/
structure Keeps (m m' : Module) : Prop where
  type : ∀ {t type}, m.type? t = some type → ∃ type', m'.type? t = some type' ∧ type.Keeps type'
  field : ∀ {f field}, m.field? f = some field → ∃ field', m'.field? f = some field' ∧ field.Keeps field'

theorem Keeps.refl (m : Module) : m.Keeps m where
  type h := ⟨_, h, .refl _⟩
  field h := ⟨_, h, .refl _⟩

theorem Keeps.trans (h : m.Keeps m') (h' : m'.Keeps m'') : m.Keeps m'' where
  type htype := by
    obtain ⟨type', htype', hkeeps⟩ := h.type htype
    obtain ⟨type'', htype'', hkeeps'⟩ := h'.type htype'
    exact ⟨type'', htype'', hkeeps.trans hkeeps'⟩
  field hfield := by
    obtain ⟨field', hfield', hkeeps⟩ := h.field hfield
    obtain ⟨field'', hfield'', hkeeps'⟩ := h'.field hfield'
    exact ⟨field'', hfield'', hkeeps.trans hkeeps'⟩

/-! ## Declarations -/

/-- Behind the end of the field table nothing is found. -/
theorem field?_eq_none_of_size_le {f : FieldId} (h : m.fields.size ≤ f.index) : m.field? f = none := by
  unfold field?
  split
  · rfl
  · exact Array.getElem?_eq_none_iff.2 h

/-- A new field is found under its row, and all other rows are found as they were. -/
theorem field?_pushField (m : Module) (field : FieldDef) (f : FieldId) :
    field? { m with fields := m.fields.push field } f =
      if f.isNil = false ∧ f.index = m.fields.size then some field else m.field? f := by
  unfold field?
  cases f.isNil with
  | true => simp
  | false => simp [Array.getElem?_push]

/-- A change of a type spares the fields. -/
theorem field?_modifyType (m : Module) (t : TypeId) (change : TypeDef → TypeDef) (f : FieldId) :
    (m.modifyType t change).field? f = m.field? f := by
  rw [field?, field?, fields_modifyType]

/-- A change of a field spares the types. -/
theorem type?_modifyField (m : Module) (f : FieldId) (change : FieldDef → FieldDef) (t : TypeId) :
    (m.modifyField f change).type? t = m.type? t := by
  rw [type?, type?, types_modifyField]

theorem size_types_modifyType (m : Module) (t : TypeId) (change : TypeDef → TypeDef) :
    (m.modifyType t change).types.size = m.types.size := by
  unfold modifyType
  split
  · rfl
  · exact Array.size_modify

theorem modifyType_frame (m : Module) (t : TypeId) (change : TypeDef → TypeDef) :
    (m.modifyType t change).id = m.id ∧ (m.modifyType t change).pointerSize = m.pointerSize := by
  unfold modifyType
  split <;> exact ⟨rfl, rfl⟩

theorem modifyField_frame (m : Module) (f : FieldId) (change : FieldDef → FieldDef) :
    (m.modifyField f change).id = m.id ∧ (m.modifyField f change).pointerSize = m.pointerSize := by
  unfold modifyField
  split <;> exact ⟨rfl, rfl⟩

theorem addField_frame (m : Module) (owner : TypeId) (name : String) (flags : FieldFlags)
    (signature : List UInt8) :
    (m.addField owner name flags signature).id = m.id ∧
      (m.addField owner name flags signature).pointerSize = m.pointerSize ∧
      (m.addField owner name flags signature).types.size = m.types.size := by
  cases howner : (m.type? owner).isSome with
  | false =>
    rw [addField_of_isSome_eq_false howner]
    exact ⟨rfl, rfl, rfl⟩
  | true =>
    rw [addField_of_isSome howner, (modifyType_frame _ _ _).1, (modifyType_frame _ _ _).2,
      size_types_modifyType]
    exact ⟨rfl, rfl, rfl⟩

/-- A change that keeps what was declared of a type keeps it of the module. -/
theorem keeps_modifyType (m : Module) (t : TypeId) {change : TypeDef → TypeDef}
    (h : ∀ type : TypeDef, type.Keeps (change type)) : m.Keeps (m.modifyType t change) where
  type {t' type} htype := by
    rw [type?_modifyType]
    by_cases heq : t' = t
    · subst heq
      rw [if_pos rfl, htype]
      exact ⟨_, rfl, h type⟩
    · rw [if_neg heq]
      exact ⟨type, htype, .refl type⟩
  field {f field} hfield := ⟨field, (m.field?_modifyType t change f).trans hfield, .refl field⟩

/-- A change that keeps what was declared of a field keeps it of the module. -/
theorem keeps_modifyField (m : Module) (f : FieldId) {change : FieldDef → FieldDef}
    (h : ∀ field : FieldDef, field.Keeps (change field)) : m.Keeps (m.modifyField f change) where
  type {t type} htype := ⟨type, (m.type?_modifyField f change t).trans htype, .refl type⟩
  field {f' field} hfield := by
    rw [field?_modifyField]
    by_cases heq : f' = f
    · subst heq
      rw [if_pos rfl, hfield]
      exact ⟨_, rfl, h field⟩
    · rw [if_neg heq]
      exact ⟨field, hfield, .refl field⟩

/-- A new type takes no other row. -/
theorem keeps_addType (m : Module) (name : QualifiedName) (parameters : UInt32) :
    m.Keeps (m.addType name parameters) where
  type {t type} htype := by
    rw [type?_addType]
    have hold : ¬ (t.isNil = false ∧ t.index = m.types.size) := by
      rintro ⟨-, hnew⟩
      rw [type?_eq_none_of_size_le (Nat.le_of_eq hnew.symm)] at htype
      cases htype
    rw [if_neg hold]
    exact ⟨type, htype, .refl type⟩
  field {f field} hfield := ⟨field, hfield, .refl field⟩

/-- A new field takes no other row. -/
theorem keeps_pushField (m : Module) (field : FieldDef) :
    m.Keeps { m with fields := m.fields.push field } where
  type {t type} htype := ⟨type, htype, .refl type⟩
  field {f field'} hfield := by
    rw [field?_pushField]
    have hold : ¬ (f.isNil = false ∧ f.index = m.fields.size) := by
      rintro ⟨-, hnew⟩
      rw [field?_eq_none_of_size_le (Nat.le_of_eq hnew.symm)] at hfield
      cases hfield
    rw [if_neg hold]
    exact ⟨field', hfield, .refl field'⟩

/-- A new field, listed by its owner behind all others, leaves what was declared before alone. -/
theorem keeps_addField (m : Module) (owner : TypeId) (name : String) (flags : FieldFlags)
    (signature : List UInt8) : m.Keeps (m.addField owner name flags signature) := by
  cases howner : (m.type? owner).isSome with
  | false =>
    rw [addField_of_isSome_eq_false howner]
    exact .refl m
  | true =>
    rw [addField_of_isSome howner]
    refine (m.keeps_pushField _).trans (keeps_modifyType _ owner fun type => ⟨rfl, rfl, ?_⟩)
    rw [Array.toList_push]
    exact List.prefix_append _ _

/-- One declaration leaves what was declared before alone. -/
theorem keeps_declare (m : Module) (d : Declaration) : m.Keeps (m.declare d) := by
  match d with
  | .type name => exact m.keeps_addType name 0
  | .genericType name parameters => exact m.keeps_addType name parameters
  | .field owner name flags signature => exact m.keeps_addField owner name flags signature
  | .fieldAttribute f attr => exact m.keeps_modifyField f fun field => ⟨rfl, rfl, rfl⟩
  | .typeAttribute t attr => exact m.keeps_modifyType t fun type => ⟨rfl, rfl, List.prefix_refl _⟩

/-- Any number of declarations leave what was declared before alone. -/
theorem keeps_declareAll (m : Module) (history : List Declaration) : m.Keeps (m.declareAll history) := by
  induction history generalizing m with
  | nil => exact .refl m
  | cons d rest ih => exact (m.keeps_declare d).trans (ih (m.declare d))

/-! ## The rows that are returned -/

/-- The rows that declarations return when they are carried out in order, on `m`. -/
def declaredRows (m : Module) : List Declaration → List DeclaredRow
  | [] => []
  | d :: rest => m.declaredRow d :: (m.declare d).declaredRows rest

/-- All fields in declaration order. -/
def fieldIds (m : Module) : List FieldId :=
  (List.range m.fieldCount).map fun i => ⟨UInt32.ofNat (i + 1)⟩

/-- The last declaration returns its row behind those of all others. -/
theorem declaredRows_concat (m : Module) (history : List Declaration) (d : Declaration) :
    m.declaredRows (history ++ [d]) = m.declaredRows history ++ [(m.declareAll history).declaredRow d] := by
  induction history generalizing m with
  | nil => rfl
  | cons first rest ih => exact congrArg _ (ih (m.declare first))

/-- A table that is not full gives its next row the number behind its length. -/
theorem toNat_clamp_succ {count : ℕ} (h : count + 1 < UInt32.size) :
    (Word.clamp (count + 1)).toNat = count + 1 := by
  rw [Word.toNat_clamp]
  omega

theorem clamp_eq_ofNat {count : ℕ} (h : count < UInt32.size) : Word.clamp count = UInt32.ofNat count :=
  if_pos h

/-- A type table that is longer by one row lists this row behind all others. -/
theorem typeIds_eq_concat (hgrown : m'.types.size = m.types.size + 1) (hsize : m'.types.size < UInt32.size) :
    m'.typeIds = m.typeIds ++ [⟨Word.clamp (m.types.size + 1)⟩] := by
  have hcount : m.typeCount.toNat = m.types.size := by
    rw [typeCount, Word.toNat_clamp]
    omega
  have hcount' : m'.typeCount.toNat = m.types.size + 1 := by
    rw [typeCount, hgrown, toNat_clamp_succ (hgrown ▸ hsize)]
  rw [typeIds, typeIds, hcount, hcount', List.range_succ, List.map_append, clamp_eq_ofNat (hgrown ▸ hsize)]
  rfl

/-- A field table that is longer by one row lists this row behind all others. -/
theorem fieldIds_eq_concat (hgrown : m'.fields.size = m.fields.size + 1)
    (hsize : m'.fields.size < UInt32.size) :
    m'.fieldIds = m.fieldIds ++ [⟨Word.clamp (m.fields.size + 1)⟩] := by
  rw [fieldIds, fieldIds, fieldCount, fieldCount, hgrown, List.range_succ, List.map_append,
    clamp_eq_ofNat (hgrown ▸ hsize)]
  rfl

/-- Everything that a declaration does to the tables: a new type goes to the end of the one, a new field to
the end of the other, or both keep their lengths. -/
theorem size_declare (m : Module) (d : Declaration) :
    (m.declaredRow d).type? = none ∧ (m.declaredRow d).field? = none ∧
        (m.declare d).types.size = m.types.size ∧ (m.declare d).fields.size = m.fields.size ∨
      m.declaredRow d = .type ⟨Word.clamp (m.types.size + 1)⟩ ∧
        (m.declare d).types.size = m.types.size + 1 ∧ (m.declare d).fields.size = m.fields.size ∨
      m.declaredRow d = .field ⟨Word.clamp (m.fields.size + 1)⟩ ∧
        (m.declare d).types.size = m.types.size ∧ (m.declare d).fields.size = m.fields.size + 1 := by
  match d with
  | .type name => exact .inr (.inl ⟨rfl, Array.size_push _, rfl⟩)
  | .genericType name parameters => exact .inr (.inl ⟨rfl, Array.size_push _, rfl⟩)
  | .field owner name flags signature =>
    cases howner : m.type? owner with
    | none =>
      have hnone : (m.type? owner).isNone := by simp [howner]
      have hsame : m.declare (.field owner name flags signature) = m := if_pos hnone
      have hnil : m.declaredRow (.field owner name flags signature) = .field .nil :=
        congrArg DeclaredRow.field (if_pos hnone)
      rw [hsame, hnil]
      exact .inl ⟨rfl, rfl, rfl, rfl⟩
    | some type =>
      have hsome : (m.type? owner).isSome := by simp [howner]
      refine .inr (.inr ⟨?_, ?_, ?_⟩)
      · simp [declaredRow, howner]
      · rw [declare, addField_of_isSome hsome, size_types_modifyType]
      · exact size_fields_addField hsome name flags signature
  | .fieldAttribute f attr =>
    refine .inl ⟨rfl, rfl, ?_, m.size_fields_modifyField f _⟩
    rw [declare, addFieldAttribute, types_modifyField]
  | .typeAttribute t attr =>
    refine .inl ⟨rfl, rfl, m.size_types_modifyType t _, ?_⟩
    rw [declare, addTypeAttribute, fields_modifyType]

/-- As long as it fits, the type table grows by the row that is returned, or not at all. -/
theorem typeIds_declare {d : Declaration} (hsize : (m.declare d).types.size < UInt32.size) :
    (m.declare d).typeIds = m.typeIds ++ (m.declaredRow d).type?.toList := by
  rcases m.size_declare d with ⟨hnone, -, htypes, -⟩ | ⟨hrow, htypes, -⟩ | ⟨hrow, htypes, -⟩
  · rw [hnone, typeIds, typeIds, typeCount, typeCount, htypes]
    exact (List.append_nil _).symm
  · rw [hrow, typeIds_eq_concat htypes hsize]
    rfl
  · rw [hrow, typeIds, typeIds, typeCount, typeCount, htypes]
    exact (List.append_nil _).symm

/-- The row behind a table that is not full is not nil. -/
theorem isNil_clamp_succ {count : ℕ} (h : count + 1 < UInt32.size) :
    FieldId.isNil ⟨Word.clamp (count + 1)⟩ = false := by
  rw [FieldId.isNil, beq_eq_false_iff_ne, Ne, ← UInt32.toNat_inj, toNat_clamp_succ h]
  exact Nat.succ_ne_zero _

/-- The row behind a table that is not full is the one at its position. -/
theorem isNil_index_iff {count : ℕ} (h : count + 1 < UInt32.size) {f : FieldId} :
    f.isNil = false ∧ f.index = count ↔ f = ⟨Word.clamp (count + 1)⟩ := by
  have hindex : FieldId.index ⟨Word.clamp (count + 1)⟩ = count := by
    rw [FieldId.index, toNat_clamp_succ h, Nat.add_sub_cancel]
  constructor
  · rintro ⟨hnil, hf⟩
    exact (index_inj_field hnil (isNil_clamp_succ h)).1 (hf.trans hindex.symm)
  · rintro rfl
    exact ⟨isNil_clamp_succ h, hindex⟩

/-- As long as it fits, the field table grows by the row that is returned, or not at all. -/
theorem fieldIds_declare {d : Declaration} (hsize : (m.declare d).fields.size < UInt32.size) :
    (m.declare d).fieldIds = m.fieldIds ++ (m.declaredRow d).field?.toList := by
  rcases m.size_declare d with ⟨-, hnone, -, hfields⟩ | ⟨hrow, -, hfields⟩ | ⟨hrow, -, hfields⟩
  · rw [hnone, fieldIds, fieldIds, fieldCount, fieldCount, hfields]
    exact (List.append_nil _).symm
  · rw [hrow, fieldIds, fieldIds, fieldCount, fieldCount, hfields]
    exact (List.append_nil _).symm
  · rw [hrow, fieldIds_eq_concat hfields hsize, DeclaredRow.field?, isNil_clamp_succ (hfields ▸ hsize),
      if_neg Bool.false_ne_true]
    rfl

/-! ## What a row says -/

/-- The row that a declaration returned says what was declared, and a field is listed by its owner and by no
other type. The nil row says nothing. -/
def Holds (m : Module) : Declaration → DeclaredRow → Prop
  | .type name, .type t => m.typeName? t = some name ∧ m.genericParameterCount t = 0
  | .genericType name parameters, .type t =>
    m.typeName? t = some name ∧ m.genericParameterCount t = parameters
  | .field owner name flags signature, .field f =>
    f.isNil = false →
      m.fieldName? f = some name ∧ m.flagsOf f = flags ∧ m.signatureOf f = signature ∧
        ∀ t, f ∈ m.fieldsOf t ↔ t = owner
  | .fieldAttribute _ _, .none | .typeAttribute _ _, .none => True
  | _, _ => False

/-- The module does not have the row. -/
def Lacks (m : Module) : DeclaredRow → Prop
  | .type t => m.type? t = none
  | .field f => m.field? f = none
  | .none => True

/-- The row that a declaration is about to return is not taken. -/
theorem lacks_declaredRow {d : Declaration} (htypes : (m.declare d).types.size < UInt32.size)
    (hfields : (m.declare d).fields.size < UInt32.size) : m.Lacks (m.declaredRow d) := by
  cases hrow : m.declaredRow d with
  | none => trivial
  | type t =>
    rcases m.size_declare d with ⟨hnone, -⟩ | ⟨hnew, hgrown, -⟩ | ⟨hnew, -⟩
    · rw [hrow] at hnone
      cases hnone
    · rw [hrow] at hnew
      cases hnew
      apply type?_eq_none_of_size_le
      rw [TypeId.index, toNat_clamp_succ (hgrown ▸ htypes)]
      exact Nat.le_refl _
    · cases hrow.symm.trans hnew
  | field f =>
    rcases m.size_declare d with ⟨-, hnone, -⟩ | ⟨hnew, -⟩ | ⟨hnew, -, hgrown⟩
    · have hnil : f.isNil = true := by simpa [hrow, DeclaredRow.field?] using hnone
      exact if_pos hnil
    · cases hrow.symm.trans hnew
    · rw [hrow] at hnew
      cases hnew
      apply field?_eq_none_of_size_le
      rw [FieldId.index, toNat_clamp_succ (hgrown ▸ hfields)]
      exact Nat.le_refl _

/-- The type that was just added is found under the row behind all others. -/
theorem type?_addType_last (m : Module) (name : QualifiedName) (parameters : UInt32)
    (hsize : m.types.size + 1 < UInt32.size) :
    (m.addType name parameters).type? ⟨Word.clamp (m.types.size + 1)⟩ =
      some ⟨name, parameters, #[], []⟩ := by
  have hrow := toNat_clamp_succ hsize
  have hnil : TypeId.isNil ⟨Word.clamp (m.types.size + 1)⟩ = false := by
    rw [isNil_eq_false_iff, hrow]
    exact Nat.succ_pos _
  have hindex : TypeId.index ⟨Word.clamp (m.types.size + 1)⟩ = m.types.size := by
    rw [TypeId.index, hrow, Nat.add_sub_cancel]
  rw [type?_addType, if_pos ⟨hnil, hindex⟩]

/-- As long as it fits, the new row of the field table is that behind all others. -/
theorem field?_pushField_of_lt (hsize : m.fields.size + 1 < UInt32.size) (field : FieldDef) (f : FieldId) :
    field? { m with fields := m.fields.push field } f =
      if f = ⟨Word.clamp (m.fields.size + 1)⟩ then some field else m.field? f := by
  rw [field?_pushField]
  simp only [isNil_index_iff hsize]

/-- As long as it fits, a new field is found under the row behind all others, and these are found as they
were. -/
theorem field?_addField {owner : TypeId} (howner : (m.type? owner).isSome)
    (hsize : m.fields.size + 1 < UInt32.size) (name : String) (flags : FieldFlags)
    (signature : List UInt8) (f : FieldId) :
    (m.addField owner name flags signature).field? f =
      if f = ⟨Word.clamp (m.fields.size + 1)⟩ then some ⟨name, flags, signature, []⟩ else m.field? f := by
  rw [addField_of_isSome howner, field?_modifyType, field?_pushField_of_lt hsize]

/-- The row that a declaration returns says what was declared. -/
theorem holds_declare {d : Declaration} (htypes : (m.declare d).types.size < UInt32.size)
    (hfields : (m.declare d).fields.size < UInt32.size) (hm : (m.declare d).Numbered) :
    (m.declare d).Holds d (m.declaredRow d) := by
  match d with
  | .type name =>
    have hlast := m.type?_addType_last name 0 (by rwa [declare, addType, Array.size_push] at htypes)
    exact ⟨congrArg (Option.map _) hlast, by rw [genericParameterCount, declare, hlast]⟩
  | .genericType name parameters =>
    have hlast := m.type?_addType_last name parameters
      (by rwa [declare, addType, Array.size_push] at htypes)
    exact ⟨congrArg (Option.map _) hlast, by rw [genericParameterCount, declare, hlast]⟩
  | .field owner name flags signature =>
    rw [declaredRow]
    by_cases hnone : (m.type? owner).isNone
    · -- a field of an unknown type is not added, and the nil row is returned
      rw [if_pos hnone]
      exact fun hnil => absurd hnil (by decide)
    · have howner : (m.type? owner).isSome := Option.isSome_iff_ne_none.2 fun h => hnone (by simp [h])
      rw [if_neg hnone]
      rw [declare, size_fields_addField howner] at hfields
      intro hnil
      have hlast := (field?_addField howner hfields name flags signature _).trans (if_pos rfl)
      have hlisted : ⟨Word.clamp (m.fields.size + 1)⟩ ∈
          (m.declare (.field owner name flags signature)).fieldsOf owner := by
        rw [declare, fieldsOf_addField howner, if_pos rfl]
        exact List.mem_append_right _ List.mem_cons_self
      refine ⟨congrArg (Option.map _) hlast, by rw [flagsOf, declare, hlast],
        by rw [signatureOf, declare, hlast], fun t => ⟨fun ht => hm.owner_unique ht hlisted, ?_⟩⟩
      rintro rfl
      exact hlisted
  | .fieldAttribute f attr => trivial
  | .typeAttribute t attr => trivial

/-- A type that lists a field goes on listing it. -/
theorem Keeps.mem_fieldsOf (h : m.Keeps m') {t : TypeId} {f : FieldId} (hf : f ∈ m.fieldsOf t) :
    f ∈ m'.fieldsOf t := by
  rw [fieldsOf_eq_elim] at hf ⊢
  cases htype : m.type? t with
  | none => simp [htype] at hf
  | some type =>
    obtain ⟨type', htype', hkeeps⟩ := h.type htype
    rw [htype] at hf
    rw [htype']
    exact hkeeps.fields_prefix.subset hf

/-- A type that has a name goes on having it, and has as many parameters as before. -/
theorem Keeps.type_queries (h : m.Keeps m') {t : TypeId} {name : QualifiedName}
    (ht : m.typeName? t = some name) :
    m'.typeName? t = some name ∧ m'.genericParameterCount t = m.genericParameterCount t := by
  obtain ⟨type, htype, hname⟩ := Option.map_eq_some_iff.1 ht
  obtain ⟨type', htype', hkeeps⟩ := h.type htype
  refine ⟨Option.map_eq_some_iff.2 ⟨type', htype', hkeeps.name_eq.trans hname⟩, ?_⟩
  rw [genericParameterCount, genericParameterCount, htype, htype']
  exact hkeeps.genericParameters_eq

/-- A field that has a name goes on having it, and has the flags and the signature that it had before. -/
theorem Keeps.field_queries (h : m.Keeps m') {f : FieldId} {name : String}
    (hf : m.fieldName? f = some name) :
    m'.fieldName? f = some name ∧ m'.flagsOf f = m.flagsOf f ∧ m'.signatureOf f = m.signatureOf f := by
  obtain ⟨field, hfield, hname⟩ := Option.map_eq_some_iff.1 hf
  obtain ⟨field', hfield', hkeeps⟩ := h.field hfield
  refine ⟨Option.map_eq_some_iff.2 ⟨field', hfield', hkeeps.name_eq.trans hname⟩, ?_, ?_⟩
  · rw [flagsOf, flagsOf, hfield, hfield']
    exact hkeeps.flags_eq
  · rw [signatureOf, signatureOf, hfield, hfield']
    exact hkeeps.signature_eq

/-- What a row says is not changed by what leaves declarations alone. -/
theorem Holds.of_keeps {d : Declaration} {r : DeclaredRow} (h : m.Holds d r) (hkeeps : m.Keeps m')
    (hm' : m'.Numbered) : m'.Holds d r := by
  match d, r, h with
  | .type name, .type t, h =>
    obtain ⟨hname, hparameters⟩ := hkeeps.type_queries h.1
    exact ⟨hname, hparameters.trans h.2⟩
  | .genericType name parameters, .type t, h =>
    obtain ⟨hname, hparameters⟩ := hkeeps.type_queries h.1
    exact ⟨hname, hparameters.trans h.2⟩
  | .field owner name flags signature, .field f, h =>
    intro hnil
    obtain ⟨hname, hflags, hsignature, howner⟩ := h hnil
    obtain ⟨hname', hflags', hsignature'⟩ := hkeeps.field_queries hname
    have hlisted := hkeeps.mem_fieldsOf ((howner owner).2 rfl)
    refine ⟨hname', hflags'.trans hflags, hsignature'.trans hsignature, fun t => ⟨fun ht => ?_, ?_⟩⟩
    · exact hm'.owner_unique ht hlisted
    · rintro rfl
      exact hlisted
  | .fieldAttribute f attr, .none, _ => trivial
  | .typeAttribute t attr, .none, _ => trivial

/-! ## Histories -/

/-- The tables only grow. -/
theorem size_le_declareAll (m : Module) (history : List Declaration) :
    m.types.size ≤ (m.declareAll history).types.size ∧
      m.fields.size ≤ (m.declareAll history).fields.size := by
  induction history generalizing m with
  | nil => exact ⟨Nat.le_refl _, Nat.le_refl _⟩
  | cons d rest ih =>
    obtain ⟨htypes, hfields⟩ := ih (m.declare d)
    have hstep : m.types.size ≤ (m.declare d).types.size ∧ m.fields.size ≤ (m.declare d).fields.size := by
      rcases m.size_declare d with ⟨-, -, h, h'⟩ | ⟨-, h, h'⟩ | ⟨-, h, h'⟩ <;> omega
    exact ⟨Nat.le_trans hstep.1 htypes, Nat.le_trans hstep.2 hfields⟩

/-- The types that were returned are those of the module, in the order of the calls. -/
theorem filterMap_type?_declaredRows {id : ModuleId} {pointerSize : UInt32} {history : List Declaration}
    (hsize : (build id pointerSize history).types.size < UInt32.size) :
    ((empty id pointerSize).declaredRows history).filterMap DeclaredRow.type? =
      (build id pointerSize history).typeIds := by
  induction history using List.reverseRecOn with
  | nil => rfl
  | append_singleton history d ih =>
    rw [build_concat] at hsize ⊢
    have hshorter := Nat.lt_of_le_of_lt (size_le_declareAll (build id pointerSize history) [d]).1 hsize
    rw [declaredRows_concat, List.filterMap_append, ih hshorter, typeIds_declare hsize]
    rfl

/-- The fields that were returned are those of the module, in the order of the calls. -/
theorem filterMap_field?_declaredRows {id : ModuleId} {pointerSize : UInt32} {history : List Declaration}
    (hsize : (build id pointerSize history).fields.size < UInt32.size) :
    ((empty id pointerSize).declaredRows history).filterMap DeclaredRow.field? =
      (build id pointerSize history).fieldIds := by
  induction history using List.reverseRecOn with
  | nil => rfl
  | append_singleton history d ih =>
    rw [build_concat] at hsize ⊢
    have hshorter := Nat.lt_of_le_of_lt (size_le_declareAll (build id pointerSize history) [d]).2 hsize
    rw [declaredRows_concat, List.filterMap_append, ih hshorter, fieldIds_declare hsize]
    rfl

/-- The rows of a type table that is not full are those from one to the count. -/
theorem isSome_type?_iff (hsize : m.types.size < UInt32.size) {t : TypeId} :
    (m.type? t).isSome ↔ 1 ≤ t.row.toNat ∧ t.row ≤ m.typeCount := by
  have hcount : m.typeCount.toNat = m.types.size := by
    rw [typeCount, Word.toNat_clamp]
    omega
  rw [UInt32.le_iff_toNat_le, hcount]
  unfold type?
  cases hnil : t.isNil with
  | true =>
    have hzero : ¬ 0 < t.row.toNat := fun hpos =>
      absurd (hnil.symm.trans (isNil_eq_false_iff.2 hpos)) (by decide)
    rw [if_pos rfl]
    simp
    omega
  | false =>
    have hpos := isNil_eq_false_iff.1 hnil
    rw [if_neg Bool.false_ne_true, isSome_getElem?, TypeId.index]
    omega

/-- The rows of the field table are those from one to the count. -/
theorem isSome_field?_iff {f : FieldId} :
    (m.field? f).isSome ↔ 1 ≤ f.row.toNat ∧ f.row.toNat ≤ m.fieldCount := by
  unfold field? fieldCount
  cases hnil : f.isNil with
  | true =>
    have hzero : f.row = 0 := beq_iff_eq.1 hnil
    rw [if_pos rfl, hzero]
    simp
  | false =>
    have hpos : f.row ≠ 0 := beq_eq_false_iff_ne.1 hnil
    rw [Ne, ← UInt32.toNat_inj, UInt32.toNat_zero] at hpos
    rw [if_neg Bool.false_ne_true, isSome_getElem?, FieldId.index]
    omega

/-- What a module that a history builds has of its declarations. -/
structure KeepsDeclarations (id : ModuleId) (pointerSize : UInt32) (history : List Declaration) : Prop where
  /-- Type rows are numbered from one on. -/
  isSome_type?_iff : ∀ t, ((build id pointerSize history).type? t).isSome ↔
    1 ≤ t.row.toNat ∧ t.row ≤ (build id pointerSize history).typeCount
  /-- Field rows are numbered from one on. -/
  isSome_field?_iff : ∀ f, ((build id pointerSize history).field? f).isSome ↔
    1 ≤ f.row.toNat ∧ f.row.toNat ≤ (build id pointerSize history).fieldCount
  /-- The types are returned in the order of their rows. -/
  types_eq : ((empty id pointerSize).declaredRows history).filterMap DeclaredRow.type? =
    (build id pointerSize history).typeIds
  /-- The fields are returned in the order of their rows, and nil where there is no owner. -/
  fields_eq : ((empty id pointerSize).declaredRows history).filterMap DeclaredRow.field? =
    (build id pointerSize history).fieldIds
  /-- Each field has one owner, and nothing else is listed. -/
  existsUnique_owner_iff : ∀ f, (∃! t, f ∈ (build id pointerSize history).fieldsOf t) ↔
    ((build id pointerSize history).field? f).isSome
  /-- An owner lists a field once. -/
  count_eq_one : ∀ t f, f ∈ (build id pointerSize history).fieldsOf t →
    ((build id pointerSize history).fieldsOf t).count f = 1
  /-- A type lists its fields in the order of their rows. -/
  ascending : ∀ t, ((build id pointerSize history).fieldsOf t).Pairwise fun f g => f.row < g.row
  /-- The row that a declaration returns is new, and says what was declared then and at any later time. -/
  lasting : ∀ before d after, before ++ d :: after <+: history →
    (build id pointerSize before).Lacks ((build id pointerSize before).declaredRow d) ∧
      (build id pointerSize (before ++ d :: after)).Holds d ((build id pointerSize before).declaredRow d)

/-- A history that fits the tables builds a module that has everything that was declared, each in its own row
and for ever. -/
theorem keepsDeclarations_build {id : ModuleId} {pointerSize : UInt32} {history : List Declaration}
    (htypes : (build id pointerSize history).types.size < UInt32.size)
    (hfields : (build id pointerSize history).fields.size < UInt32.size) :
    KeepsDeclarations id pointerSize history := by
  have hnumbered := numbered_build hfields
  refine ⟨fun t => isSome_type?_iff htypes, fun f => isSome_field?_iff,
    filterMap_type?_declaredRows htypes, filterMap_field?_declaredRows hfields, ?existsUnique_owner_iff,
    ?count_eq_one, hnumbered.ascending, ?lasting⟩
  case existsUnique_owner_iff =>
    intro f
    have hlisted := hnumbered.exists_owner_iff f
    rw [isSome_field?_iff]
    constructor
    · rintro ⟨t, ht, -⟩
      exact hlisted.1 ⟨t, ht⟩
    · intro hf
      obtain ⟨t, ht⟩ := hlisted.2 hf
      exact ⟨t, ht, fun t' ht' => hnumbered.owner_unique ht' ht⟩
  case count_eq_one =>
    intro t f hf
    have hnodup : ((build id pointerSize history).fieldsOf t).Nodup :=
      (hnumbered.ascending t).imp fun {f g} hlt heq => UInt32.ne_of_lt hlt (congrArg FieldId.row heq)
    exact List.count_eq_one_of_mem hnodup hf
  case lasting =>
    rintro before d after ⟨rest, rfl⟩
    -- the tables fit at the end, and so they do right after the declaration and at the later time
    rw [build_append] at htypes hfields
    obtain ⟨hlater, hlater'⟩ := size_le_declareAll (build id pointerSize (before ++ d :: after)) rest
    have hthere := Nat.lt_of_le_of_lt hlater' hfields
    obtain ⟨hnext, hnext'⟩ := size_le_declareAll ((build id pointerSize before).declare d) after
    have hthen : build id pointerSize (before ++ d :: after) =
        ((build id pointerSize before).declare d).declareAll after := build_append _ _ _ _
    rw [← hthen] at hnext hnext'
    have htypes' := Nat.lt_of_le_of_lt hnext (Nat.lt_of_le_of_lt hlater htypes)
    have hfields' := Nat.lt_of_le_of_lt hnext' hthere
    have hnew : ((build id pointerSize before).declare d).Numbered := by
      rw [← build_concat] at hfields' ⊢
      exact numbered_build hfields'
    refine ⟨lacks_declaredRow htypes' hfields', (holds_declare htypes' hfields' hnew).of_keeps ?_ ?_⟩
    · rw [hthen]
      exact keeps_declareAll _ after
    · exact numbered_build hthere

/-- A history in which two types get their fields in turn, one field has no owner, and attributes are attached
to rows that exist and to rows that do not. -/
def interleavedHistory : List Declaration := [
  .type ⟨"App", "Node"⟩, .field ⟨2⟩ "early" .static [0x06, 0x08],
  .genericType ⟨"App", "Pool"⟩ 1, .field ⟨1⟩ "first" .static [0x06, 0x12, 0x08],
  .field ⟨2⟩ "shared" .none [], .fieldAttribute ⟨1⟩ threadStaticMarker, .typeAttribute ⟨9⟩ byRefLikeMarker,
  .field ⟨1⟩ "next" .literal [0x06], .fieldAttribute .nil threadStaticMarker]

theorem keepsDeclarations_build_interleavedHistory :
    (build ⟨3⟩ 8 interleavedHistory).types.size < UInt32.size ∧
      (build ⟨3⟩ 8 interleavedHistory).fields.size < UInt32.size ∧
      KeepsDeclarations ⟨3⟩ 8 interleavedHistory :=
  ⟨by decide, by decide, keepsDeclarations_build (by decide) (by decide)⟩

end Module

end StaticStorage
