import StaticStorage.Module.Basic

/-!
# Marker attributes

Two well-known attributes change how statics are stored. Only their presence counts; arguments are
ignored.
-/

namespace StaticStorage.Module

/-- Marks a static field that has a slot of its own in every thread. -/
def threadStaticMarker : QualifiedName := ⟨"System", "ThreadStaticAttribute"⟩

/-- Marks a value type that may live on the stack only. -/
def byRefLikeMarker : QualifiedName := ⟨"System.Runtime.CompilerServices", "IsByRefLikeAttribute"⟩

/-- Does every thread have its own slot for the field? -/
def isThreadStatic (m : Module) (f : FieldId) : Bool := m.fieldHasAttribute f threadStaticMarker

/-- Is the type behind the handle confined to the stack? A type of another module is taken for an
ordinary one. -/
def isByRefLike (m : Module) (handle : TypeHandle) : Bool :=
  match m.resolveType? handle with
  | some t => m.typeHasAttribute t byRefLikeMarker
  | none => false

end StaticStorage.Module
