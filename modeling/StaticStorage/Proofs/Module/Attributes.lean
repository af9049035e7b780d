import StaticStorage.Proofs.Module.Separation

/-!
# Attributes and the declarations behind them

An attribute is on a row because a declaration put it there when the row existed already, and for no other
reason. A declaration that comes before its row is lost; it does not wait for the row. So the attributes of a
module can be read off its history, and all that has to be known of a point in the history is how many rows of
each table have been declared.

* `counts_build` — the tables of a module are as long as its history has rows declared.
* `build_of_dropped` — a declaration that comes before its row may as well not be there.
* `mem_typeAttributes_declare`, `mem_fieldAttributes_declare` — what one declaration does to the attributes of
  a row.
* `holds_build_iff` — from what one declaration does to what a history does.
* `attributesAsDeclared` — which attributes the rows of a module have in the end.
-/

namespace StaticStorage

/-! ## What a history declares -/

/-- The numbers of types and of fields that have been declared. -/
structure RowCounts where
  types : ℕ
  fields : ℕ

/-- The numbers after one declaration more. A field counts if its owner has been declared. -/
def RowCounts.declare (n : RowCounts) : Declaration → RowCounts
  | .type _ | .genericType _ _ => { n with types := n.types + 1 }
  | .field owner _ _ _ => if owner.InTable n.types then { n with fields := n.fields + 1 } else n
  | .fieldAttribute _ _ | .typeAttribute _ _ => n

/-- The numbers of types and of fields that a history declares. -/
def rowCounts (history : List Declaration) : RowCounts := history.foldl RowCounts.declare ⟨0, 0⟩

/-- The declaration refers to a row that has not been declared. -/
def Declaration.Dropped (n : RowCounts) : Declaration → Prop
  | .type _ | .genericType _ _ => False
  | .field owner _ _ _ => ¬ owner.InTable n.types
  | .fieldAttribute f _ => ¬ f.InTable n.fields
  | .typeAttribute t _ => ¬ t.InTable n.types

/-- The history attaches the attribute to the type at a point at which the type has been declared. -/
def AttachedToType (history : List Declaration) (t : TypeId) (attr : QualifiedName) : Prop :=
  ∃ before after, history = before ++ .typeAttribute t attr :: after ∧ t.InTable (rowCounts before).types

/-- The history attaches the attribute to the field at a point at which the field has been declared. -/
def AttachedToField (history : List Declaration) (f : FieldId) (attr : QualifiedName) : Prop :=
  ∃ before after, history = before ++ .fieldAttribute f attr :: after ∧
    f.InTable (rowCounts before).fields

/-- What stands in a history with one declaration more stands in front of this declaration, or is it. -/
theorem exists_eq_append_cons_concat {history : List Declaration} {d last : Declaration}
    {p : List Declaration → Prop} :
    (∃ before after, history ++ [last] = before ++ d :: after ∧ p before) ↔
      (∃ before after, history = before ++ d :: after ∧ p before) ∨ last = d ∧ p history := by
  constructor
  · rintro ⟨before, after, heq, hp⟩
    rcases List.eq_nil_or_concat after with rfl | ⟨rest, x, rfl⟩
    · obtain ⟨rfl, hlast⟩ := List.append_inj' heq rfl
      exact .inr ⟨List.singleton_inj.1 hlast, hp⟩
    · rw [List.concat_eq_append, ← List.cons_append, ← List.append_assoc] at heq
      exact .inl ⟨before, rest, (List.append_inj' heq rfl).1, hp⟩
  · rintro (⟨before, after, rfl, hp⟩ | ⟨rfl, hp⟩)
    · exact ⟨before, after ++ [last], List.append_assoc _ _ _, hp⟩
    · exact ⟨history, [], rfl, hp⟩

namespace Module

variable {m : Module} {d : Declaration} {t : TypeId} {f : FieldId} {attr : QualifiedName}

/-- The numbers of types and of fields that the module has. -/
def counts (m : Module) : RowCounts := ⟨m.types.size, m.fields.size⟩

/-- A declaration takes a row of a table just when it counts. -/
theorem counts_declare (m : Module) (d : Declaration) : (m.declare d).counts = m.counts.declare d := by
  match d with
  | .type name => exact congrArg (RowCounts.mk · _) (Array.size_push _)
  | .genericType name parameters => exact congrArg (RowCounts.mk · _) (Array.size_push _)
  | .field owner name flags signature =>
    change _ = if owner.InTable m.types.size then _ else _
    split
    · next howner =>
      have hsome : (m.type? owner).isSome :=
        Option.isSome_iff_ne_none.2 fun hnone => type?_eq_none_iff.1 hnone howner
      exact congr (congrArg RowCounts.mk (m.addField_frame owner name flags signature).2.2)
        (size_fields_addField hsome name flags signature)
    · next howner => exact congrArg counts ((ignoresType howner).addField_eq name flags signature)
  | .fieldAttribute f attr =>
    exact congr (congrArg RowCounts.mk (congrArg Array.size (m.types_modifyField f _)))
      (m.size_fields_modifyField f _)
  | .typeAttribute t attr =>
    exact congr (congrArg RowCounts.mk (m.size_types_modifyType t _))
      (congrArg Array.size (m.fields_modifyType t _))

/-- The tables of a module are as long as its history has rows declared. -/
theorem counts_build (id : ModuleId) (pointerSize : UInt32) (history : List Declaration) :
    (build id pointerSize history).counts = rowCounts history := by
  induction history using List.reverseRecOn with
  | nil => rfl
  | append_singleton history d ih =>
    rw [build_concat, counts_declare, ih, rowCounts, rowCounts, List.foldl_concat]

/-! ## Declarations that come too early -/

/-- A declaration that refers to a row which is not there does nothing. -/
theorem declare_of_dropped (hd : d.Dropped m.counts) : m.declare d = m := by
  match d with
  | .type _ | .genericType _ _ => exact hd.elim
  | .field owner name flags signature => exact (ignoresType hd).addField_eq name flags signature
  | .fieldAttribute f attr => exact (ignoresField hd).addFieldAttribute_eq attr
  | .typeAttribute t attr => exact (ignoresType hd).addTypeAttribute_eq attr

/-- A declaration that comes before its row may as well not be there. -/
theorem build_of_dropped {id : ModuleId} {pointerSize : UInt32} {before after : List Declaration}
    (hd : d.Dropped (rowCounts before)) :
    build id pointerSize (before ++ d :: after) = build id pointerSize (before ++ after) := by
  rw [← counts_build id pointerSize] at hd
  rw [build_append, build_append, declareAll, List.foldl_cons, declare_of_dropped hd, declareAll]

/-! ## The attributes of a row -/

/-- The attributes of a type; none for a row that is not there. -/
def typeAttributes (m : Module) (t : TypeId) : List QualifiedName := (m.type? t).elim [] (·.attributes)

/-- The attributes of a field; none for a row that is not there. -/
def fieldAttributes (m : Module) (f : FieldId) : List QualifiedName := (m.field? f).elim [] (·.attributes)

theorem typeHasAttribute_iff_mem : m.typeHasAttribute t attr = true ↔ attr ∈ m.typeAttributes t := by
  unfold typeHasAttribute typeAttributes
  cases m.type? t <;> simp

theorem fieldHasAttribute_iff_mem : m.fieldHasAttribute f attr = true ↔ attr ∈ m.fieldAttributes f := by
  unfold fieldHasAttribute fieldAttributes
  cases m.field? f <;> simp

/-- A new type has no attributes. -/
theorem typeAttributes_addType (m : Module) (name : QualifiedName) (parameters : UInt32) (t : TypeId) :
    (m.addType name parameters).typeAttributes t = m.typeAttributes t := by
  rw [typeAttributes, typeAttributes, type?_addType]
  split
  · next hnew =>
    rw [type?_eq_none_of_size_le (Nat.le_of_eq hnew.2.symm)]
    rfl
  · rfl

/-- A new field changes no attributes of its owner. -/
theorem typeAttributes_addField (m : Module) (owner : TypeId) (name : String) (flags : FieldFlags)
    (signature : List UInt8) (t : TypeId) :
    (m.addField owner name flags signature).typeAttributes t = m.typeAttributes t := by
  by_cases howner : owner.InTable m.types.size
  · obtain ⟨-, -, -, ⟨type, htype, htype'⟩, hothers, -⟩ := altersType_addField howner name flags signature
    by_cases heq : t = owner
    · subst heq
      rw [typeAttributes, typeAttributes, htype, htype']
      rfl
    · rw [typeAttributes, typeAttributes, hothers t heq]
  · rw [(ignoresType howner).addField_eq]

/-- A new field has no attributes. -/
theorem fieldAttributes_addField (m : Module) (owner : TypeId) (name : String) (flags : FieldFlags)
    (signature : List UInt8) (f : FieldId) :
    (m.addField owner name flags signature).fieldAttributes f = m.fieldAttributes f := by
  cases howner : (m.type? owner).isSome with
  | false => rw [addField_of_isSome_eq_false howner]
  | true =>
    rw [addField_of_isSome howner, fieldAttributes, fieldAttributes, field?_modifyType, field?_pushField]
    split
    · next hnew =>
      rw [field?_eq_none_of_size_le (Nat.le_of_eq hnew.2.symm)]
      rfl
    · rfl

/-- An attribute is attached to the type that the declaration names, if this type is there. -/
theorem mem_typeAttributes_addTypeAttribute {t' : TypeId} {attr' : QualifiedName} :
    attr ∈ (m.addTypeAttribute t' attr').typeAttributes t ↔
      attr ∈ m.typeAttributes t ∨ (t' = t ∧ attr' = attr) ∧ t.InTable m.types.size := by
  by_cases ht' : t'.InTable m.types.size
  · obtain ⟨-, -, -, ⟨type, htype, htype'⟩, hothers, -⟩ := altersType_modifyType ht' fun type =>
      { type with attributes := type.attributes.insert attr' }
    by_cases heq : t' = t
    · subst heq
      rw [typeAttributes, typeAttributes, addTypeAttribute, htype, htype']
      simp [ht', or_comm, eq_comm]
    · rw [typeAttributes, typeAttributes, addTypeAttribute, hothers t (Ne.symm heq)]
      simp [heq]
  · rw [(ignoresType ht').addTypeAttribute_eq]
    refine (or_iff_left ?_).symm
    rintro ⟨⟨rfl, -⟩, ht⟩
    exact ht' ht

/-- An attribute is attached to the field that the declaration names, if this field is there. -/
theorem mem_fieldAttributes_addFieldAttribute {f' : FieldId} {attr' : QualifiedName} :
    attr ∈ (m.addFieldAttribute f' attr').fieldAttributes f ↔
      attr ∈ m.fieldAttributes f ∨ (f' = f ∧ attr' = attr) ∧ f.InTable m.fields.size := by
  by_cases hf' : f'.InTable m.fields.size
  · obtain ⟨-, -, -, ⟨field, hfield, hfield'⟩, hothers, -⟩ := altersField_modifyField hf' fun field =>
      { field with attributes := field.attributes.insert attr' }
    by_cases heq : f' = f
    · subst heq
      rw [fieldAttributes, fieldAttributes, addFieldAttribute, hfield, hfield']
      simp [hf', or_comm, eq_comm]
    · rw [fieldAttributes, fieldAttributes, addFieldAttribute, hothers f (Ne.symm heq)]
      simp [heq]
  · rw [(ignoresField hf').addFieldAttribute_eq]
    refine (or_iff_left ?_).symm
    rintro ⟨⟨rfl, -⟩, hf⟩
    exact hf' hf

/-- Everything that a declaration does to the attributes of a type. -/
theorem mem_typeAttributes_declare :
    attr ∈ (m.declare d).typeAttributes t ↔
      attr ∈ m.typeAttributes t ∨ d = .typeAttribute t attr ∧ t.InTable m.types.size := by
  match d with
  | .type name => simp [declare, typeAttributes_addType]
  | .genericType name parameters => simp [declare, typeAttributes_addType]
  | .field owner name flags signature => simp [declare, typeAttributes_addField]
  | .fieldAttribute f attr => simp [declare, addFieldAttribute, typeAttributes, type?_modifyField]
  | .typeAttribute t' attr' =>
    rw [declare, mem_typeAttributes_addTypeAttribute, Declaration.typeAttribute.injEq]

/-- Everything that a declaration does to the attributes of a field. -/
theorem mem_fieldAttributes_declare :
    attr ∈ (m.declare d).fieldAttributes f ↔
      attr ∈ m.fieldAttributes f ∨ d = .fieldAttribute f attr ∧ f.InTable m.fields.size := by
  match d with
  | .type name => simp [declare, addType, fieldAttributes, field?]
  | .genericType name parameters => simp [declare, addType, fieldAttributes, field?]
  | .field owner name flags signature => simp [declare, fieldAttributes_addField]
  | .fieldAttribute f' attr' =>
    rw [declare, mem_fieldAttributes_addFieldAttribute, Declaration.fieldAttribute.injEq]
  | .typeAttribute t attr => simp [declare, addTypeAttribute, fieldAttributes, field?_modifyType]

/-! ## Histories -/

section Build

variable {id : ModuleId} {pointerSize : UInt32} {history : List Declaration}

/-- What a declaration alone brings about, and only from certain counts on, is there in the end if the history
makes this declaration at such a point. -/
theorem holds_build_iff (holds : Module → Prop) (ready : RowCounts → Prop)
    (hempty : ¬ holds (build id pointerSize []))
    (hdeclare : ∀ m d', holds (m.declare d') ↔ holds m ∨ d' = d ∧ ready m.counts) :
    holds (build id pointerSize history) ↔
      ∃ before after, history = before ++ d :: after ∧ ready (rowCounts before) := by
  -- the last declaration is the one that meets the counts of the whole history before it
  induction history using List.reverseRecOn with
  | nil =>
    refine iff_of_false hempty ?_
    rintro ⟨before, after, hnil, -⟩
    simp at hnil
  | append_singleton history last ih =>
    rw [build_concat, hdeclare, ih, counts_build]
    exact exists_eq_append_cons_concat.symm

/-- A type has the attributes that have been attached to it. -/
theorem mem_typeAttributes_build :
    attr ∈ (build id pointerSize history).typeAttributes t ↔ AttachedToType history t attr := by
  have hnone : (build id pointerSize []).type? t = none := type?_eq_none_of_size_le (Nat.zero_le _)
  refine holds_build_iff (fun m => attr ∈ m.typeAttributes t) (fun n => t.InTable n.types) ?_ fun m d =>
    mem_typeAttributes_declare
  simp [typeAttributes, hnone]

/-- A field has the attributes that have been attached to it. -/
theorem mem_fieldAttributes_build :
    attr ∈ (build id pointerSize history).fieldAttributes f ↔ AttachedToField history f attr := by
  have hnone : (build id pointerSize []).field? f = none := field?_eq_none_of_size_le (Nat.zero_le _)
  refine holds_build_iff (fun m => attr ∈ m.fieldAttributes f) (fun n => f.InTable n.fields) ?_ fun m d =>
    mem_fieldAttributes_declare
  simp [fieldAttributes, hnone]

/-- A type is confined to the stack if it is one of the module's and carries the marker. -/
theorem isByRefLike_eq_true_iff {handle : TypeHandle} :
    m.isByRefLike handle = true ↔ ∃ t, handle = .typeDef t ∧ 1 ≤ t.row.toNat ∧ t.row ≤ m.typeCount ∧
      byRefLikeMarker ∈ m.typeAttributes t := by
  have hlocal : m.isByRefLike handle = true ↔
      ∃ t, m.resolveType? handle = some t ∧ m.typeHasAttribute t byRefLikeMarker = true := by
    unfold isByRefLike
    cases m.resolveType? handle <;> simp
  rw [hlocal]
  exact exists_congr fun t => by
    rw [resolveType?_eq_some_iff, typeHasAttribute_iff_mem, and_assoc, and_assoc]

/-- The attributes of a module are those that its history attaches to rows which exist at that point. -/
structure AttributesAsDeclared (id : ModuleId) (pointerSize : UInt32) (history : List Declaration) :
    Prop where
  typeHasAttribute_iff : ∀ t attr,
    (build id pointerSize history).typeHasAttribute t attr = true ↔ AttachedToType history t attr
  fieldHasAttribute_iff : ∀ f attr,
    (build id pointerSize history).fieldHasAttribute f attr = true ↔ AttachedToField history f attr
  isByRefLike_iff : ∀ handle, (build id pointerSize history).isByRefLike handle = true ↔
    ∃ t, handle = .typeDef t ∧ 1 ≤ t.row.toNat ∧ t.row ≤ (build id pointerSize history).typeCount ∧
      AttachedToType history t byRefLikeMarker
  isThreadStatic_iff : ∀ f,
    (build id pointerSize history).isThreadStatic f = true ↔ AttachedToField history f threadStaticMarker
  /-- The rows that are counted are those that the module has. -/
  counts_eq : (build id pointerSize history).counts = rowCounts history
  /-- A declaration that comes before its row is lost, even if the row is declared later. -/
  dropped : ∀ before d after, history = before ++ d :: after → d.Dropped (rowCounts before) →
    build id pointerSize history = build id pointerSize (before ++ after)

/-- Every history builds a module with the attributes that it declares. -/
theorem attributesAsDeclared (id : ModuleId) (pointerSize : UInt32) (history : List Declaration) :
    AttributesAsDeclared id pointerSize history where
  typeHasAttribute_iff _ _ := typeHasAttribute_iff_mem.trans mem_typeAttributes_build
  fieldHasAttribute_iff _ _ := fieldHasAttribute_iff_mem.trans mem_fieldAttributes_build
  isByRefLike_iff handle := by
    simp only [isByRefLike_eq_true_iff, mem_typeAttributes_build]
  isThreadStatic_iff _ := fieldHasAttribute_iff_mem.trans mem_fieldAttributes_build
  counts_eq := counts_build id pointerSize history
  dropped before d after heq hd := heq ▸ build_of_dropped hd

/-- The marker comes before its type, and is not there when the type is. -/
example : (build ⟨1⟩ 8 [.typeAttribute ⟨1⟩ byRefLikeMarker, .type ⟨"App", "Span"⟩]).isByRefLike
    (.typeDef ⟨1⟩) = false := by decide

end Build

end Module

end StaticStorage
