import Mathlib.Data.List.Induction
import StaticStorage.Module.Declaration

/-!
# Rows of a module under construction

A declaration changes the lists of fields in one way only: a field that is declared takes the next row and
goes to the end of its owner's list (`fieldsOf_declare`). So every row of the field table is listed by one
type and in one place, and each type lists its rows in the order of their declaration, whatever else is
declared in between.

* `Numbered.declare` — one declaration keeps the numbering.
* `numbered_build` — every module that fits its tables is numbered.
-/

namespace StaticStorage.Module

variable {m : Module}

/-- The rows of the field table are spread over the types: each row is listed by just one type, which
lists its rows in ascending order. -/
structure Numbered (m : Module) : Prop where
  ascending : ∀ t, (m.fieldsOf t).Pairwise fun f g => f.row < g.row
  exists_owner_iff : ∀ f, (∃ t, f ∈ m.fieldsOf t) ↔ 0 < f.row.toNat ∧ f.row.toNat ≤ m.fields.size
  owner_unique : ∀ {t t' f}, f ∈ m.fieldsOf t → f ∈ m.fieldsOf t' → t = t'

/-- No type lists a row behind the end of the field table. -/
theorem Numbered.row_le_size (h : m.Numbered) {t : TypeId} {f : FieldId} (hf : f ∈ m.fieldsOf t) :
    f.row.toNat ≤ m.fields.size :=
  ((h.exists_owner_iff f).1 ⟨t, hf⟩).2

/-! ## What a declaration does to the lists of fields -/

/-- A row names something when it is not zero. -/
theorem isNil_eq_false_iff {t : TypeId} : t.isNil = false ↔ 0 < t.row.toNat := by
  rw [TypeId.isNil, beq_eq_false_iff_ne, Ne, ← UInt32.toNat_inj, UInt32.toNat_zero]
  exact Nat.pos_iff_ne_zero.symm

/-- Types are told apart by their positions. -/
theorem index_inj {t t' : TypeId} (ht : t.isNil = false) (ht' : t'.isNil = false) :
    t.index = t'.index ↔ t = t' := by
  rw [isNil_eq_false_iff] at ht ht'
  obtain ⟨row⟩ := t
  obtain ⟨row'⟩ := t'
  rw [TypeId.mk.injEq, ← UInt32.toNat_inj]
  dsimp only [TypeId.index] at ht ht' ⊢
  omega

/-- A changed row is found changed, and all other rows are found as they were. -/
theorem type?_modifyType (m : Module) (t t' : TypeId) (change : TypeDef → TypeDef) :
    (m.modifyType t change).type? t' = if t' = t then (m.type? t).map change else m.type? t' := by
  unfold modifyType type?
  cases ht : t.isNil with
  | true =>
    by_cases heq : t' = t
    · simp [heq, ht]
    · simp [heq]
  | false =>
    cases ht' : t'.isNil with
    | true =>
      have hne : t' ≠ t := by
        rintro rfl
        exact absurd (ht.symm.trans ht') Bool.false_ne_true
      simp [hne]
    | false =>
      simp only [Bool.false_eq_true, if_false, Array.getElem?_modify, index_inj ht ht']
      by_cases heq : t' = t
      · subst heq
        simp
      · simp [heq, Ne.symm heq]

/-- A new type is found under its row, and all other rows are found as they were. -/
theorem type?_addType (m : Module) (name : QualifiedName) (parameters : UInt32) (t : TypeId) :
    (m.addType name parameters).type? t =
      if t.isNil = false ∧ t.index = m.types.size then some ⟨name, parameters, #[], []⟩
      else m.type? t := by
  unfold addType type?
  cases t.isNil with
  | true => simp
  | false => simp [Array.getElem?_push]

/-- Behind the end of the type table nothing is found. -/
theorem type?_eq_none_of_size_le {t : TypeId} (h : m.types.size ≤ t.index) : m.type? t = none := by
  unfold type?
  split
  · rfl
  · exact Array.getElem?_eq_none_iff.2 h

theorem fieldsOf_eq_elim (m : Module) (t : TypeId) :
    m.fieldsOf t = (m.type? t).elim [] (·.fields.toList) := by
  unfold fieldsOf
  cases m.type? t <;> rfl

/-- A change that spares the list of fields spares all lists of fields. -/
theorem fieldsOf_modifyType (m : Module) (t t' : TypeId) {change : TypeDef → TypeDef}
    (h : ∀ type, (change type).fields = type.fields) :
    (m.modifyType t change).fieldsOf t' = m.fieldsOf t' := by
  rw [fieldsOf_eq_elim, fieldsOf_eq_elim, type?_modifyType]
  by_cases heq : t' = t
  · subst heq
    rw [if_pos rfl]
    cases m.type? t' with
    | none => rfl
    | some type => simp [h]
  · rw [if_neg heq]

theorem fields_modifyType (m : Module) (t : TypeId) (change : TypeDef → TypeDef) :
    (m.modifyType t change).fields = m.fields := by
  unfold modifyType
  split <;> rfl

/-- A new type lists no fields. -/
theorem fieldsOf_addType (m : Module) (name : QualifiedName) (parameters : UInt32) (t : TypeId) :
    (m.addType name parameters).fieldsOf t = m.fieldsOf t := by
  rw [fieldsOf_eq_elim, fieldsOf_eq_elim, type?_addType]
  split
  · next hnew =>
    rw [type?_eq_none_of_size_le (Nat.le_of_eq hnew.2.symm)]
    rfl
  · rfl

/-- A field of an unknown type is not added. -/
theorem addField_of_isSome_eq_false {owner : TypeId} (howner : (m.type? owner).isSome = false)
    (name : String) (flags : FieldFlags) (signature : List UInt8) :
    m.addField owner name flags signature = m := by
  unfold addField
  rw [if_pos (by simpa using howner)]

/-- A field of a type that exists takes the next row and is listed by its owner. -/
theorem addField_of_isSome {owner : TypeId} (howner : (m.type? owner).isSome) (name : String)
    (flags : FieldFlags) (signature : List UInt8) :
    m.addField owner name flags signature =
      { m with fields := m.fields.push ⟨name, flags, signature, []⟩ }.modifyType owner fun type =>
        { type with fields := type.fields.push ⟨Word.clamp (m.fields.size + 1)⟩ } := by
  unfold addField
  rw [if_neg (by rw [Option.isNone_iff_eq_none]; exact Option.isSome_iff_ne_none.1 howner)]

/-- A new field takes one row. -/
theorem size_fields_addField {owner : TypeId} (howner : (m.type? owner).isSome) (name : String)
    (flags : FieldFlags) (signature : List UInt8) :
    (m.addField owner name flags signature).fields.size = m.fields.size + 1 := by
  rw [addField_of_isSome howner, fields_modifyType, Array.size_push]

/-- A new field changes the row of its owner, and all other types are found as they were. -/
theorem type?_addField {owner : TypeId} (howner : (m.type? owner).isSome) (name : String)
    (flags : FieldFlags) (signature : List UInt8) (t : TypeId) :
    (m.addField owner name flags signature).type? t =
      if t = owner then (m.type? owner).map fun type =>
        { type with fields := type.fields.push ⟨Word.clamp (m.fields.size + 1)⟩ }
      else m.type? t := by
  rw [addField_of_isSome howner, type?_modifyType]
  rfl

/-- A new field goes to the end of its owner's list. -/
theorem fieldsOf_addField {owner : TypeId} (howner : (m.type? owner).isSome) (name : String)
    (flags : FieldFlags) (signature : List UInt8) (t : TypeId) :
    (m.addField owner name flags signature).fieldsOf t =
      if t = owner then m.fieldsOf t ++ [⟨Word.clamp (m.fields.size + 1)⟩] else m.fieldsOf t := by
  obtain ⟨type, htype⟩ := Option.isSome_iff_exists.1 howner
  rw [fieldsOf_eq_elim, fieldsOf_eq_elim, type?_addField howner]
  by_cases heq : t = owner
  · subst heq
    simp [htype]
  · simp [heq]

/-! ## The field table -/

/-- Fields are told apart by their positions. -/
theorem index_inj_field {f f' : FieldId} (hf : f.isNil = false) (hf' : f'.isNil = false) :
    f.index = f'.index ↔ f = f' := by
  rw [FieldId.isNil, beq_eq_false_iff_ne, Ne, ← UInt32.toNat_inj, UInt32.toNat_zero] at hf hf'
  obtain ⟨row⟩ := f
  obtain ⟨row'⟩ := f'
  rw [FieldId.mk.injEq, ← UInt32.toNat_inj]
  dsimp only [FieldId.index] at hf hf' ⊢
  omega

/-- A changed row is found changed, and all other rows are found as they were. -/
theorem field?_modifyField (m : Module) (f f' : FieldId) (change : FieldDef → FieldDef) :
    (m.modifyField f change).field? f' = if f' = f then (m.field? f).map change else m.field? f' := by
  unfold modifyField field?
  cases hf : f.isNil with
  | true =>
    by_cases heq : f' = f
    · simp [heq, hf]
    · simp [heq]
  | false =>
    cases hf' : f'.isNil with
    | true =>
      have hne : f' ≠ f := by
        rintro rfl
        exact absurd (hf.symm.trans hf') Bool.false_ne_true
      simp [hne]
    | false =>
      simp only [Bool.false_eq_true, if_false, Array.getElem?_modify, index_inj_field hf hf']
      by_cases heq : f' = f
      · subst heq
        simp
      · simp [heq, Ne.symm heq]

theorem size_fields_modifyField (m : Module) (f : FieldId) (change : FieldDef → FieldDef) :
    (m.modifyField f change).fields.size = m.fields.size := by
  unfold modifyField
  split
  · rfl
  · exact Array.size_modify

theorem types_modifyField (m : Module) (f : FieldId) (change : FieldDef → FieldDef) :
    (m.modifyField f change).types = m.types := by
  unfold modifyField
  split <;> rfl

/-! ## Declarations -/

/-- Everything that a declaration does to the lists of fields: nothing, or the next row goes to the end of
one list. -/
theorem fieldsOf_declare (m : Module) (d : Declaration) :
    ((m.declare d).fields.size = m.fields.size ∧ ∀ t, (m.declare d).fieldsOf t = m.fieldsOf t) ∨
      ∃ owner, (m.declare d).fields.size = m.fields.size + 1 ∧
        ∀ t, (m.declare d).fieldsOf t =
          if t = owner then m.fieldsOf t ++ [⟨Word.clamp (m.fields.size + 1)⟩] else m.fieldsOf t := by
  match d with
  | .type name => exact .inl ⟨rfl, m.fieldsOf_addType name 0⟩
  | .genericType name parameters => exact .inl ⟨rfl, m.fieldsOf_addType name parameters⟩
  | .field owner name flags signature =>
    cases howner : (m.type? owner).isSome with
    | false =>
      have hsame : m.declare (.field owner name flags signature) = m :=
        addField_of_isSome_eq_false howner name flags signature
      exact .inl ⟨by rw [hsame], fun t => by rw [hsame]⟩
    | true =>
      exact .inr ⟨owner, size_fields_addField howner name flags signature,
        fieldsOf_addField howner name flags signature⟩
  | .fieldAttribute f attr =>
    refine .inl ⟨m.size_fields_modifyField f _, fun t => ?_⟩
    rw [declare, addFieldAttribute, fieldsOf, fieldsOf, type?, type?, types_modifyField]
  | .typeAttribute t attr =>
    refine .inl ⟨?_, fun t' => m.fieldsOf_modifyType t t' fun type => rfl⟩
    rw [declare, addTypeAttribute, fields_modifyType]

/-- One declaration keeps the numbering, as long as its row fits the table. -/
theorem Numbered.declare (h : m.Numbered) {d : Declaration}
    (hsize : (m.declare d).fields.size < UInt32.size) : (m.declare d).Numbered := by
  rcases m.fieldsOf_declare d with ⟨hsame, hlists⟩ | ⟨owner, hgrown, hlists⟩
  · refine ⟨fun t => ?_, fun f => ?_, fun {t t' f} hf hf' => ?_⟩
    · rw [hlists]
      exact h.ascending t
    · simp only [hlists, hsame]
      exact h.exists_owner_iff f
    · rw [hlists] at hf hf'
      exact h.owner_unique hf hf'
  · have hrow : (Word.clamp (m.fields.size + 1)).toNat = m.fields.size + 1 := by
      rw [Word.toNat_clamp]
      omega
    have hmem : ∀ t f, f ∈ (m.declare d).fieldsOf t ↔
        f ∈ m.fieldsOf t ∨ t = owner ∧ f = ⟨Word.clamp (m.fields.size + 1)⟩ := by
      intro t f
      rw [hlists]
      by_cases heq : t = owner <;> simp [heq]
    refine ⟨fun t => ?ascending, fun f => ?exists_owner_iff, fun {t t' f} hf hf' => ?owner_unique⟩
    case ascending =>
      rw [hlists]
      split
      · rw [List.pairwise_append]
        refine ⟨h.ascending t, List.pairwise_singleton _ _, fun f hf g hg => ?_⟩
        obtain rfl := List.mem_singleton.1 hg
        -- no list holds the new row yet
        have hle := h.row_le_size hf
        rw [UInt32.lt_iff_toNat_lt, hrow]
        omega
      · exact h.ascending t
    case exists_owner_iff =>
      constructor
      · rintro ⟨t, hf⟩
        rcases (hmem t f).1 hf with hold | ⟨-, rfl⟩
        · have hrange := (h.exists_owner_iff f).1 ⟨t, hold⟩
          omega
        · rw [hrow]
          omega
      · rintro ⟨hpos, hle⟩
        rcases Nat.lt_or_eq_of_le (hgrown ▸ hle) with hlt | hlast
        · obtain ⟨t, hf⟩ := (h.exists_owner_iff f).2 ⟨hpos, Nat.le_of_lt_succ hlt⟩
          exact ⟨t, (hmem t f).2 (.inl hf)⟩
        · refine ⟨owner, (hmem owner f).2 (.inr ⟨rfl, ?_⟩)⟩
          rw [← hrow, UInt32.toNat_inj] at hlast
          exact congrArg FieldId.mk hlast
    case owner_unique =>
      rcases (hmem t f).1 hf with hold | ⟨rfl, rfl⟩ <;>
        rcases (hmem t' _).1 hf' with hold' | ⟨rfl, hrow'⟩
      · exact h.owner_unique hold hold'
      · have hle := h.row_le_size hold
        rw [hrow', hrow] at hle
        omega
      · have hle := h.row_le_size hold'
        rw [hrow] at hle
        omega
      · rfl

/-- The field table of a module only grows. -/
theorem size_fields_le_declare (m : Module) (d : Declaration) :
    m.fields.size ≤ (m.declare d).fields.size := by
  rcases m.fieldsOf_declare d with ⟨hsame, -⟩ | ⟨owner, hgrown, -⟩ <;> omega

/-- Later declarations are carried out on what the earlier ones have built. -/
theorem build_append (id : ModuleId) (pointerSize : UInt32) (before after : List Declaration) :
    build id pointerSize (before ++ after) = (build id pointerSize before).declareAll after := by
  unfold build declareAll
  rw [List.foldl_append]

/-- The last declaration is carried out on what all others have built. -/
theorem build_concat (id : ModuleId) (pointerSize : UInt32) (history : List Declaration)
    (d : Declaration) :
    build id pointerSize (history ++ [d]) = (build id pointerSize history).declare d :=
  build_append id pointerSize history [d]

/-- A module without declarations lists no fields. -/
theorem fieldsOf_build_nil (id : ModuleId) (pointerSize : UInt32) (t : TypeId) :
    (build id pointerSize []).fieldsOf t = [] := by
  rw [fieldsOf_eq_elim, type?_eq_none_of_size_le (Nat.zero_le _)]
  rfl

/-- Every module whose fields fit the table is numbered. -/
theorem numbered_build {id : ModuleId} {pointerSize : UInt32} {history : List Declaration}
    (hsize : (build id pointerSize history).fields.size < UInt32.size) :
    (build id pointerSize history).Numbered := by
  induction history using List.reverseRecOn with
  | nil =>
    refine ⟨fun t => ?_, fun f => ?_, fun {t t' f} hf => ?_⟩
    · rw [fieldsOf_build_nil]
      exact .nil
    · simp only [fieldsOf_build_nil, List.not_mem_nil, exists_false, false_iff]
      rintro ⟨hpos, hle⟩
      exact absurd (Nat.lt_of_lt_of_le hpos hle) (Nat.lt_irrefl 0)
    · rw [fieldsOf_build_nil] at hf
      exact absurd hf List.not_mem_nil
  | append_singleton history d ih =>
    rw [build_concat] at hsize ⊢
    exact (ih (Nat.lt_of_le_of_lt (size_fields_le_declare _ d) hsize)).declare hsize

end StaticStorage.Module
