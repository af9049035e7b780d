import StaticStorage.Module.Basic

/-!
# Building modules

A module is built by declarations, and rows are numbered in the order in which they are declared. A
declaration that refers to a row which does not exist at that point does nothing: a field of an unknown
type is not added, and an attribute of an unknown row is dropped, even if the row is declared later.

`Module.build` runs a whole history of declarations.
-/

namespace StaticStorage

/-- One step in the building of a module. -/
inductive Declaration where
  /-- A type without generic parameters. -/
  | type (name : QualifiedName)
  /-- A type with generic parameters. -/
  | genericType (name : QualifiedName) (parameters : UInt32)
  /-- A field of a type. -/
  | field (owner : TypeId) (name : String) (flags : FieldFlags) (signature : List UInt8)
  /-- An attribute of a field. -/
  | fieldAttribute (field : FieldId) (attr : QualifiedName)
  /-- An attribute of a type. -/
  | typeAttribute (type : TypeId) (attr : QualifiedName)
deriving DecidableEq

/-- The row that a declaration created; the nil row for a field without an owner. -/
inductive DeclaredRow where
  | type (t : TypeId)
  | field (f : FieldId)
  | none
deriving DecidableEq

namespace Module

/-- Change the row of a type, if there is one. -/
def modifyType (m : Module) (t : TypeId) (change : TypeDef → TypeDef) : Module :=
  if t.isNil then m else { m with types := m.types.modify t.index change }

/-- Change the row of a field, if there is one. -/
def modifyField (m : Module) (f : FieldId) (change : FieldDef → FieldDef) : Module :=
  if f.isNil then m else { m with fields := m.fields.modify f.index change }

/-- Declare a type. -/
def addType (m : Module) (name : QualifiedName) (parameters : UInt32) : Module :=
  { m with types := m.types.push ⟨name, parameters, #[], []⟩ }

/-- Declare a field and list it with its owner. -/
def addField (m : Module) (owner : TypeId) (name : String) (flags : FieldFlags)
    (signature : List UInt8) : Module :=
  if (m.type? owner).isNone then m
  else
    let row : FieldId := ⟨Word.clamp (m.fields.size + 1)⟩
    let m := { m with fields := m.fields.push ⟨name, flags, signature, []⟩ }
    m.modifyType owner fun type => { type with fields := type.fields.push row }

/-- Attach an attribute to a field. -/
def addFieldAttribute (m : Module) (f : FieldId) (attr : QualifiedName) : Module :=
  m.modifyField f fun field => { field with attributes := field.attributes.insert attr }

/-- Attach an attribute to a type. -/
def addTypeAttribute (m : Module) (t : TypeId) (attr : QualifiedName) : Module :=
  m.modifyType t fun type => { type with attributes := type.attributes.insert attr }

/-- Carry out one declaration. -/
def declare (m : Module) : Declaration → Module
  | .type name => m.addType name 0
  | .genericType name parameters => m.addType name parameters
  | .field owner name flags signature => m.addField owner name flags signature
  | .fieldAttribute f attr => m.addFieldAttribute f attr
  | .typeAttribute t attr => m.addTypeAttribute t attr

/-- The row that a declaration creates when it is carried out on `m`. -/
def declaredRow (m : Module) : Declaration → DeclaredRow
  | .type _ | .genericType _ _ => .type ⟨Word.clamp (m.types.size + 1)⟩
  | .field owner _ _ _ =>
    .field (if (m.type? owner).isNone then .nil else ⟨Word.clamp (m.fields.size + 1)⟩)
  | .fieldAttribute _ _ | .typeAttribute _ _ => .none

/-- Carry out declarations in order. -/
def declareAll (m : Module) (history : List Declaration) : Module := history.foldl declare m

/-- The module that a history of declarations builds. -/
def build (id : ModuleId) (pointerSize : UInt32) (history : List Declaration) : Module :=
  (empty id pointerSize).declareAll history

end Module

end StaticStorage
