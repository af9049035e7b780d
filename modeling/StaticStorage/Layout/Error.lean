import StaticStorage.Signature.Field

/-!
# Layout errors

A module has no layout when its target is not supported, when one of its statics is defective, or when a
block grows past the largest word. A defect belongs to one of two classes: either the program is invalid,
because a signature makes no sense, or a type cannot be loaded, because it may not be a static at all.

* `bind_eq_ok`, `bind_eq_error` — a computation of two parts goes through just when both parts do, and fails
  when one of them does.
-/

namespace StaticStorage

/-- What is wrong with a static field. -/
inductive FieldDefect where
  /-- The signature is not a field signature. -/
  | malformed (fault : SignatureError)
  /-- The tag has no storage of its own, and no handle stands behind it. -/
  | noStorageClass (element : Element)
  /-- A managed pointer. -/
  | byRef
  /-- A value type of the module that may live on the stack only. -/
  | byRefLike (type : TypeId)
deriving DecidableEq

/-- Why a module has no layout. -/
inductive LayoutError where
  /-- A static field is defective. -/
  | field (f : FieldId) (defect : FieldDefect)
  /-- No layout is made for a target with these sizes. -/
  | unsupportedTarget (pointerSize largestPrimitive : UInt32)
  /-- A sum of sizes does not fit a word. -/
  | overflow
deriving DecidableEq

namespace FieldDefect

/-- Is the program invalid? -/
def isInvalidProgram : FieldDefect → Bool
  | malformed _ | noStorageClass _ => true
  | byRef | byRefLike _ => false

/-- The defect in words. -/
def message : FieldDefect → String
  | malformed fault => fault.message
  | noStorageClass element => "element type " ++ element.display ++ " has no static storage class"
  | byRef => "by-reference fields cannot be static"
  | byRefLike type =>
    "by-ref-like value type " ++ type.describe ++ " cannot be boxed into a static"

end FieldDefect

namespace LayoutError

/-- The field at fault, if one is. -/
def field? : LayoutError → Option FieldId
  | field f _ => some f
  | unsupportedTarget _ _ | overflow => none

/-- Is the program invalid? -/
def isInvalidProgram : LayoutError → Bool
  | field _ defect => defect.isInvalidProgram
  | unsupportedTarget _ _ | overflow => false

/-- Is there a type that cannot be loaded? -/
def isTypeLoad : LayoutError → Bool
  | field _ defect => !defect.isInvalidProgram
  | unsupportedTarget _ _ | overflow => false

/-- The error in words. -/
def message : LayoutError → String
  | field f defect =>
    (if defect.isInvalidProgram then "invalid signature on static field "
      else "unsupported static field type on ") ++ f.describe ++ ": " ++ defect.message
  | unsupportedTarget pointerSize largestPrimitive =>
    "unsupported target: pointer size " ++ Decimal.write pointerSize.toNat
      ++ ", maximum primitive size " ++ Decimal.write largestPrimitive.toNat
  | overflow => "attempt to add with overflow"

/-- A checked sum, with a missing one reported. -/
def orOverflow {α : Type} : Option α → Except LayoutError α
  | some value => .ok value
  | none => .error .overflow

/-- A sum is not reported just when there is one. -/
theorem orOverflow_eq_ok {α : Type} {sum : Option α} {value : α} :
    orOverflow sum = .ok value ↔ sum = some value := by
  cases sum <;> simp [orOverflow]

/-- Only a missing sum is reported, and only as an overflow. -/
theorem orOverflow_eq_error {α : Type} {sum : Option α} {e : LayoutError} :
    orOverflow sum = .error e ↔ sum = none ∧ e = .overflow := by
  cases sum <;> simp [orOverflow, eq_comm]

end LayoutError

/-! ## Computations that go through, and computations that fail -/

/-- A computation goes through just when its first part does, and the rest does with what that gave. -/
theorem bind_eq_ok {ε α β : Type} {first : Except ε α} {rest : α → Except ε β} {value : β} :
    first >>= rest = .ok value ↔ ∃ middle, first = .ok middle ∧ rest middle = .ok value := by
  cases first with
  | error e => simp [bind, Except.bind]
  | ok middle => simp [bind, Except.bind]

/-- A computation fails with the error of its first part, or of the rest after that. -/
theorem bind_eq_error {ε α β : Type} {first : Except ε α} {rest : α → Except ε β} {e : ε} :
    first >>= rest = .error e ↔
      first = .error e ∨ ∃ middle, first = .ok middle ∧ rest middle = .error e := by
  cases first with
  | error e' => simp [bind, Except.bind]
  | ok middle => simp [bind, Except.bind]

/-- Reporting an error as another one does not change what goes through. -/
theorem mapError_eq_ok {ε ε' α : Type} {outcome : Except ε α} {report : ε → ε'} {value : α} :
    outcome.mapError report = .ok value ↔ outcome = .ok value := by
  cases outcome with
  | error e => exact ⟨nofun, nofun⟩
  | ok result =>
    constructor
    · intro h
      exact congrArg Except.ok (Except.ok.inj h)
    · intro h
      exact congrArg Except.ok (Except.ok.inj h)

/-- An error is reported just when there is one. -/
theorem mapError_eq_error {ε ε' α : Type} {outcome : Except ε α} {report : ε → ε'} {e' : ε'} :
    outcome.mapError report = .error e' ↔ ∃ e, outcome = .error e ∧ report e = e' := by
  cases outcome with
  | error e =>
    constructor
    · intro h
      exact ⟨e, rfl, Except.error.inj h⟩
    · rintro ⟨_, ⟨⟩, rfl⟩
      rfl
  | ok result => exact ⟨nofun, fun ⟨_, h, _⟩ => nomatch h⟩

end StaticStorage
