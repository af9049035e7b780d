import StaticStorage.Text.Hex

/-!
# Field flags

The sixteen flag bits of a field row. Only two of them matter to storage: a field is stored once for
its type when it is static, and a literal is a compile-time constant without storage. All other bits,
named or not, pass through untouched.
-/

namespace StaticStorage

/-- The flags of a field row. -/
structure FieldFlags where
  bits : UInt16
deriving DecidableEq

namespace FieldFlags

/-- No flag at all. -/
def none : FieldFlags := ⟨0⟩

/-- The three bits that hold the accessibility. -/
def accessMask : FieldFlags := ⟨0x0007⟩

/-- Accessible everywhere. -/
def publicAccess : FieldFlags := ⟨0x0006⟩

/-- Stored once for the type, not in each instance. -/
def static : FieldFlags := ⟨0x0010⟩

/-- A compile-time constant; it has no storage. -/
def literal : FieldFlags := ⟨0x0040⟩

/-- The named flags in declaration order. -/
def named : List (String × FieldFlags) :=
  [("FIELD_ACCESS_MASK", accessMask), ("PUBLIC", publicAccess), ("STATIC", static),
   ("INIT_ONLY", ⟨0x0020⟩), ("LITERAL", literal), ("NOT_SERIALIZED", ⟨0x0080⟩),
   ("HAS_FIELD_RVA", ⟨0x0100⟩), ("SPECIAL_NAME", ⟨0x0200⟩), ("RT_SPECIAL_NAME", ⟨0x0400⟩),
   ("HAS_FIELD_MARSHAL", ⟨0x1000⟩), ("PINVOKE_IMPL", ⟨0x2000⟩), ("HAS_DEFAULT", ⟨0x8000⟩)]

/-- The flags that two sets share. -/
def inter (a b : FieldFlags) : FieldFlags := ⟨a.bits &&& b.bits⟩

/-- The flags of `a` that `b` does not have. -/
def diff (a b : FieldFlags) : FieldFlags := ⟨a.bits &&& ~~~b.bits⟩

/-- All flags that `a` does not have. -/
def complement (a : FieldFlags) : FieldFlags := ⟨~~~a.bits⟩

/-- Does `a` have all flags of `b`? -/
def contains (a b : FieldFlags) : Bool := a.inter b == b

/-- Do the two sets share a flag? -/
def intersects (a b : FieldFlags) : Bool := a.inter b != none

/-- Static and not a literal: the field needs a slot of static storage. -/
def hasStaticStorage (a : FieldFlags) : Bool := a.contains static && !a.contains literal

/-- The names that spell out `whole`, in order, and the bits that no name covers. A name is used when
all its bits are in `whole` and some of them are not yet covered. -/
def spell (whole rest : FieldFlags) : List (String × FieldFlags) → List String × FieldFlags
  | [] => ([], rest)
  | (name, flag) :: more =>
    if whole.contains flag && rest.intersects flag then
      let (names, left) := spell whole (rest.diff flag) more
      (name :: names, left)
    else spell whole rest more

/-- The flags as listings show them: the names that apply, then the remaining bits in one numeral. -/
def describe (a : FieldFlags) : String :=
  let (names, left) := spell a a named
  let parts := if left.bits = 0 ∧ names ≠ [] then names else names ++ ["0x" ++ Hex.lower left.bits.toNat]
  "FieldAttributes(" ++ " | ".intercalate parts ++ ")"

end FieldFlags

end StaticStorage
