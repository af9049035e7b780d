import StaticStorage.Proofs.Module.Lasting
import StaticStorage.Proofs.Packing.SlotRules

/-!
# Every row for itself

The nil row and the first row of a table have the same position. Still the nil row is no row of the table, no
more than the rows past its end: nothing is found there, and what is attached or added there is dropped. And
what is attached or added to a row of the table changes this row alone.

* `type?_eq_none_iff`, `field?_eq_none_iff` — nothing is found under the rows that a table does not have.
* `modifyType_of_not_inTable`, `modifyField_of_not_inTable` — and nothing is changed there.
* `altersType_modifyType`, `altersField_modifyField` — a change of a row leaves all other rows alone.
* `separatesRows` — what this makes of every query and of every declaration.
-/

namespace StaticStorage

/-- The row is one of a table of this size: neither nil nor past the end. -/
def TypeId.InTable (t : TypeId) (size : ℕ) : Prop := 1 ≤ t.row.toNat ∧ t.row.toNat ≤ size

/-- The row is one of a table of this size: neither nil nor past the end. -/
def FieldId.InTable (f : FieldId) (size : ℕ) : Prop := 1 ≤ f.row.toNat ∧ f.row.toNat ≤ size

instance (t : TypeId) (size : ℕ) : Decidable (t.InTable size) := inferInstanceAs (Decidable (_ ∧ _))

instance (f : FieldId) (size : ℕ) : Decidable (f.InTable size) := inferInstanceAs (Decidable (_ ∧ _))

/-- The rows of a table are those that have a position in it and are not nil. -/
theorem TypeId.inTable_iff {t : TypeId} {size : ℕ} :
    t.InTable size ↔ t.isNil = false ∧ t.index < size := by
  rw [InTable, Module.isNil_eq_false_iff, index]
  omega

/-- The rows of a table are those that have a position in it and are not nil. -/
theorem FieldId.inTable_iff {f : FieldId} {size : ℕ} :
    f.InTable size ↔ f.isNil = false ∧ f.index < size := by
  rw [InTable, isNil, beq_eq_false_iff_ne, Ne, ← UInt32.toNat_inj, UInt32.toNat_zero, index]
  omega

namespace Module

variable {m m' : Module} {t : TypeId} {f : FieldId}

/-! ## Rows that are not there -/

theorem type?_eq_none_iff : m.type? t = none ↔ ¬ t.InTable m.types.size := by
  rw [TypeId.inTable_iff]
  unfold type?
  cases t.isNil with
  | true => simp
  | false => simp

theorem field?_eq_none_iff : m.field? f = none ↔ ¬ f.InTable m.fields.size := by
  rw [FieldId.inTable_iff]
  unfold field?
  cases f.isNil with
  | true => simp
  | false => simp

/-- No row is past the number of types unless it is past the end of the table. -/
theorem le_typeCount_iff : t.row ≤ m.typeCount ↔ t.row.toNat ≤ m.types.size := by
  have hrow := t.row.toNat_lt_size
  rw [UInt32.le_iff_toNat_le, typeCount, Word.toNat_clamp]
  omega

/-- A change past the end of a table changes nothing. -/
theorem modify_of_size_le {α : Type} {rows : Array α} {i : ℕ} (h : rows.size ≤ i) (change : α → α) :
    rows.modify i change = rows := by
  refine Array.ext_getElem? fun j => ?_
  rw [Array.getElem?_modify]
  split
  · next heq =>
    rw [← heq, Array.getElem?_eq_none_iff.2 h]
    rfl
  · rfl

/-- A change of a row that is not there changes nothing. -/
theorem modifyType_of_not_inTable (h : ¬ t.InTable m.types.size) (change : TypeDef → TypeDef) :
    m.modifyType t change = m := by
  rw [TypeId.inTable_iff] at h
  unfold modifyType
  split
  · rfl
  · next hnil =>
    rw [modify_of_size_le (Nat.le_of_not_lt fun hlt => h ⟨Bool.eq_false_iff.2 hnil, hlt⟩)]

/-- A change of a row that is not there changes nothing. -/
theorem modifyField_of_not_inTable (h : ¬ f.InTable m.fields.size) (change : FieldDef → FieldDef) :
    m.modifyField f change = m := by
  rw [FieldId.inTable_iff] at h
  unfold modifyField
  split
  · rfl
  · next hnil =>
    rw [modify_of_size_le (Nat.le_of_not_lt fun hlt => h ⟨Bool.eq_false_iff.2 hnil, hlt⟩)]

/-- The module has no such type: every question about the row has its neutral answer, and what is declared of
it is dropped. -/
structure IgnoresType (m : Module) (t : TypeId) : Prop where
  typeName?_eq : m.typeName? t = none
  genericParameterCount_eq : m.genericParameterCount t = 0
  fieldsOf_eq : m.fieldsOf t = []
  typeHasAttribute_eq : ∀ attr, m.typeHasAttribute t attr = false
  resolveType?_eq : m.resolveType? (.typeDef t) = none
  isByRefLike_eq : m.isByRefLike (.typeDef t) = false
  /-- A field of this type is declared in vain, and the nil row is returned for it. -/
  declaredRow_eq : ∀ name flags signature, m.declaredRow (.field t name flags signature) = .field .nil
  addField_eq : ∀ name flags signature, m.addField t name flags signature = m
  addTypeAttribute_eq : ∀ attr, m.addTypeAttribute t attr = m

/-- The module has no such field: every question about the row has its neutral answer, and what is declared of
it is dropped. Only its qualified name does not ask whether it is there. -/
structure IgnoresField (m : Module) (f : FieldId) : Prop where
  fieldName?_eq : m.fieldName? f = none
  flagsOf_eq : m.flagsOf f = .none
  signatureOf_eq : m.signatureOf f = []
  fieldHasAttribute_eq : ∀ attr, m.fieldHasAttribute f attr = false
  isThreadStatic_eq : m.isThreadStatic f = false
  qualify_eq : m.qualify f = ⟨m.id, f⟩
  addFieldAttribute_eq : ∀ attr, m.addFieldAttribute f attr = m

theorem ignoresType (h : ¬ t.InTable m.types.size) : m.IgnoresType t := by
  have hnone := type?_eq_none_iff.2 h
  have hforeign : m.resolveType? (.typeDef t) = none := by
    rw [Option.eq_none_iff_forall_ne_some]
    intro t' ht'
    obtain ⟨heq, hpos, hle⟩ := resolveType?_eq_some_iff.1 ht'
    cases heq
    exact h ⟨hpos, le_typeCount_iff.1 hle⟩
  have howner : (m.type? t).isNone = true := by rw [hnone]; rfl
  exact
    { typeName?_eq := by rw [typeName?, hnone]; rfl
      genericParameterCount_eq := by rw [genericParameterCount, hnone]
      fieldsOf_eq := by rw [fieldsOf, hnone]
      typeHasAttribute_eq := fun attr => by rw [typeHasAttribute, hnone]
      resolveType?_eq := hforeign
      isByRefLike_eq := by rw [isByRefLike, hforeign]
      declaredRow_eq := fun name flags signature => congrArg DeclaredRow.field (if_pos howner)
      addField_eq := fun name flags signature => if_pos howner
      addTypeAttribute_eq := fun attr => modifyType_of_not_inTable h _ }

theorem ignoresField (h : ¬ f.InTable m.fields.size) : m.IgnoresField f := by
  have hnone := field?_eq_none_iff.2 h
  have hattribute : ∀ attr, m.fieldHasAttribute f attr = false := fun attr => by
    rw [fieldHasAttribute, hnone]
  exact
    { fieldName?_eq := by rw [fieldName?, hnone]; rfl
      flagsOf_eq := by rw [flagsOf, hnone]
      signatureOf_eq := by rw [signatureOf, hnone]
      fieldHasAttribute_eq := hattribute
      isThreadStatic_eq := hattribute threadStaticMarker
      qualify_eq := rfl
      addFieldAttribute_eq := fun attr => modifyField_of_not_inTable h _ }

/-! ## Rows that are there -/

/-- The modules differ in the row of one type, which has been changed, and in the fields at the end of the
table, which have been appended. -/
structure AltersType (m m' : Module) (t : TypeId) (change : TypeDef → TypeDef)
    (appended : List FieldDef) : Prop where
  id_eq : m'.id = m.id
  pointerSize_eq : m'.pointerSize = m.pointerSize
  size_eq : m'.types.size = m.types.size
  changed : ∃ type, m.type? t = some type ∧ m'.type? t = some (change type)
  /-- Every other row, nil included, is found as it was. -/
  type?_eq : ∀ t', t' ≠ t → m'.type? t' = m.type? t'
  /-- Every other position of the table has what it had. -/
  getElem?_eq : ∀ i, i ≠ t.index → m'.types[i]? = m.types[i]?
  fields_eq : m'.fields.toList = m.fields.toList ++ appended

/-- The modules differ in the row of one field, which has been changed. -/
structure AltersField (m m' : Module) (f : FieldId) (change : FieldDef → FieldDef) : Prop where
  id_eq : m'.id = m.id
  pointerSize_eq : m'.pointerSize = m.pointerSize
  size_eq : m'.fields.size = m.fields.size
  changed : ∃ field, m.field? f = some field ∧ m'.field? f = some (change field)
  /-- Every other row, nil included, is found as it was. -/
  field?_eq : ∀ f', f' ≠ f → m'.field? f' = m.field? f'
  /-- Every other position of the table has what it had. -/
  getElem?_eq : ∀ i, i ≠ f.index → m'.fields[i]? = m.fields[i]?
  types_eq : m'.types = m.types

/-- A change of a type is made in its row. -/
theorem altersType_modifyType (h : t.InTable m.types.size) (change : TypeDef → TypeDef) :
    m.AltersType (m.modifyType t change) t change [] := by
  obtain ⟨hid, hpointer⟩ := m.modifyType_frame t change
  obtain ⟨type, htype⟩ := Option.ne_none_iff_exists'.1 fun hnone => type?_eq_none_iff.1 hnone h
  refine ⟨hid, hpointer, m.size_types_modifyType t change, ⟨type, htype, ?_⟩, fun t' ht' => ?_,
    fun i hi => ?_, ?_⟩
  · rw [type?_modifyType, if_pos rfl, htype]
    rfl
  · rw [type?_modifyType, if_neg ht']
  · rw [modifyType, (TypeId.inTable_iff.1 h).1, if_neg Bool.false_ne_true, Array.getElem?_modify,
      if_neg (Ne.symm hi)]
  · rw [fields_modifyType, List.append_nil]

/-- A change of a field is made in its row. -/
theorem altersField_modifyField (h : f.InTable m.fields.size) (change : FieldDef → FieldDef) :
    m.AltersField (m.modifyField f change) f change := by
  obtain ⟨hid, hpointer⟩ := m.modifyField_frame f change
  obtain ⟨field, hfield⟩ := Option.ne_none_iff_exists'.1 fun hnone => field?_eq_none_iff.1 hnone h
  refine ⟨hid, hpointer, m.size_fields_modifyField f change, ⟨field, hfield, ?_⟩, fun f' hf' => ?_,
    fun i hi => ?_, m.types_modifyField f change⟩
  · rw [field?_modifyField, if_pos rfl, hfield]
    rfl
  · rw [field?_modifyField, if_neg hf']
  · rw [modifyField, (FieldId.inTable_iff.1 h).1, if_neg Bool.false_ne_true, Array.getElem?_modify,
      if_neg (Ne.symm hi)]

/-- A new field is listed in the row of its owner, and takes a row of its own. -/
theorem altersType_addField (h : t.InTable m.types.size) (name : String) (flags : FieldFlags)
    (signature : List UInt8) :
    m.AltersType (m.addField t name flags signature) t
      (fun type => { type with fields := type.fields.push ⟨Word.clamp (m.fields.size + 1)⟩ })
      [⟨name, flags, signature, []⟩] := by
  have howner : (m.type? t).isSome :=
    Option.isSome_iff_ne_none.2 fun hnone => type?_eq_none_iff.1 hnone h
  rw [addField_of_isSome howner]
  -- the table of types is the one in which the row is changed
  let grown : Module := { m with fields := m.fields.push ⟨name, flags, signature, []⟩ }
  obtain ⟨hid, hpointer, hsize, hchanged, hrows, hpositions, hfields⟩ :=
    altersType_modifyType (show t.InTable grown.types.size from h) fun type =>
      { type with fields := type.fields.push ⟨Word.clamp (m.fields.size + 1)⟩ }
  refine ⟨hid, hpointer, hsize, hchanged, hrows, hpositions, ?_⟩
  rw [hfields, List.append_nil]
  exact Array.toList_push

/-- Every row is by itself, in its own table and with its own position, and nil is not the first row. -/
structure SeparatesRows (m : Module) : Prop where
  /-- The position of a row does not tell nil from the first row. -/
  index_nil : TypeId.nil.index = TypeId.index ⟨1⟩ ∧ FieldId.nil.index = FieldId.index ⟨1⟩
  ignoresType : ∀ t, ¬ t.InTable m.types.size → m.IgnoresType t
  ignoresField : ∀ f, ¬ f.InTable m.fields.size → m.IgnoresField f
  addField : ∀ t, t.InTable m.types.size → ∀ name flags signature,
    m.AltersType (m.addField t name flags signature) t
      (fun type => { type with fields := type.fields.push ⟨Word.clamp (m.fields.size + 1)⟩ })
      [⟨name, flags, signature, []⟩]
  addTypeAttribute : ∀ t, t.InTable m.types.size → ∀ attr,
    m.AltersType (m.addTypeAttribute t attr) t
      (fun type => { type with attributes := type.attributes.insert attr }) []
  addFieldAttribute : ∀ f, f.InTable m.fields.size → ∀ attr,
    m.AltersField (m.addFieldAttribute f attr) f
      (fun field => { field with attributes := field.attributes.insert attr })

/-- In every module each row is by itself. -/
theorem separatesRows (m : Module) : m.SeparatesRows where
  index_nil := ⟨rfl, rfl⟩
  ignoresType _ h := ignoresType h
  ignoresField _ h := ignoresField h
  addField _ h := altersType_addField h
  addTypeAttribute _ h _ := altersType_modifyType h _
  addFieldAttribute _ h _ := altersField_modifyField h _

/-- What is attached to nil is not attached to the first type. -/
example : (((empty ⟨1⟩ 8).addType ⟨"App", "Span"⟩ 0).addTypeAttribute .nil byRefLikeMarker).isByRefLike
    (.typeDef ⟨1⟩) = false := by decide

end Module

end StaticStorage
