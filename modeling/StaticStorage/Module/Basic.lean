import StaticStorage.FieldFlags
import StaticStorage.Handle
import StaticStorage.Word

/-!
# Modules

A module is two tables, one of types and one of fields. A type lists the rows of its fields in
declaration order. Everything that a layout needs is asked of a module through the queries below. Each
query has a neutral answer for the nil row and for rows that the table does not have: no parameters, no
fields, no flags, an empty signature, no attribute, no name.
-/

namespace StaticStorage

/-- A name within a namespace. Both parts are compared exactly. -/
structure QualifiedName where
  space : String
  name : String
deriving DecidableEq

/-- A row of the type table. -/
structure TypeDef where
  name : QualifiedName
  /-- The number of generic parameters; a type is generic when it has some. -/
  genericParameters : UInt32
  /-- The rows of the type's fields, in declaration order. -/
  fields : Array FieldId
  /-- The attributes attached to the type. -/
  attributes : List QualifiedName
deriving DecidableEq

/-- A row of the field table. -/
structure FieldDef where
  name : String
  flags : FieldFlags
  signature : List UInt8
  /-- The attributes attached to the field. -/
  attributes : List QualifiedName
deriving DecidableEq

/-- A compiled module. -/
structure Module where
  id : ModuleId
  /-- The width of a pointer on the module's target, in bytes. -/
  pointerSize : UInt32
  types : Array TypeDef
  fields : Array FieldDef
deriving DecidableEq

namespace Module

/-- A module without types and fields. -/
def empty (id : ModuleId) (pointerSize : UInt32) : Module := ⟨id, pointerSize, #[], #[]⟩

/-! ## Rows -/

/-- The row of a type, unless there is none. -/
def type? (m : Module) (t : TypeId) : Option TypeDef :=
  if t.isNil then none else m.types[t.index]?

/-- The row of a field, unless there is none. -/
def field? (m : Module) (f : FieldId) : Option FieldDef :=
  if f.isNil then none else m.fields[f.index]?

/-- The number of types. -/
def typeCount (m : Module) : UInt32 := Word.clamp m.types.size

/-- The number of fields. -/
def fieldCount (m : Module) : Nat := m.fields.size

/-- All types in declaration order. -/
def typeIds (m : Module) : List TypeId :=
  (List.range m.typeCount.toNat).map fun i => ⟨UInt32.ofNat (i + 1)⟩

/-! ## Types -/

/-- The name of a type. -/
def typeName? (m : Module) (t : TypeId) : Option QualifiedName := (m.type? t).map (·.name)

/-- The number of a type's generic parameters. -/
def genericParameterCount (m : Module) (t : TypeId) : UInt32 :=
  match m.type? t with
  | some type => type.genericParameters
  | none => 0

/-- Is the type generic? -/
def isGeneric (m : Module) (t : TypeId) : Bool := m.genericParameterCount t != 0

/-- The fields of a type in declaration order. -/
def fieldsOf (m : Module) (t : TypeId) : List FieldId :=
  match m.type? t with
  | some type => type.fields.toList
  | none => []

/-- Does the type carry the attribute? -/
def typeHasAttribute (m : Module) (t : TypeId) (attr : QualifiedName) : Bool :=
  match m.type? t with
  | some type => type.attributes.contains attr
  | none => false

/-- The type of this module that a handle names. Handles into the other tables, the nil row and rows past
the end of the table name none. -/
def resolveType? (m : Module) (handle : TypeHandle) : Option TypeId :=
  match handle.localType? with
  | some t => if t.row ≤ m.typeCount then some t else none
  | none => none

/-! ## Fields -/

/-- The name of a field. -/
def fieldName? (m : Module) (f : FieldId) : Option String := (m.field? f).map (·.name)

/-- The flags of a field. -/
def flagsOf (m : Module) (f : FieldId) : FieldFlags :=
  match m.field? f with
  | some field => field.flags
  | none => .none

/-- The signature of a field. -/
def signatureOf (m : Module) (f : FieldId) : List UInt8 :=
  match m.field? f with
  | some field => field.signature
  | none => []

/-- Does the field carry the attribute? -/
def fieldHasAttribute (m : Module) (f : FieldId) (attr : QualifiedName) : Bool :=
  match m.field? f with
  | some field => field.attributes.contains attr
  | none => false

/-- The field, told apart from the fields of other modules. The row is not looked up. -/
def qualify (m : Module) (f : FieldId) : QualifiedField := ⟨m.id, f⟩

end Module

end StaticStorage
