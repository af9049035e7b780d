import StaticStorage.Text.Decimal

/-!
# Identities and type handles

A module's types and fields are rows of two tables. Rows are numbered from one, and row zero is the
nil row: it names nothing. A signature refers to a type through a *handle*, which names a row of one
of three tables and travels as a single word, the row above a two-bit tag.

* `TypeHandle.toNat_coded` — the code in natural numbers: four times the row plus the tag, cut to a word.
* `TypeHandle.ofCoded?_coded` — a handle whose row fits thirty bits is read back from its code.
* `TypeHandle.coded_of_ofCoded?` — a word that decodes is the code of what it decodes to.
* `TypeHandle.isSome_ofCoded?_iff` — a word decodes unless its tag is `3`.
-/

namespace StaticStorage

/-- The identity of one compiled module. Two modules with one identity count as the same module. -/
structure ModuleId where
  raw : UInt32
deriving DecidableEq

/-- A row of a module's type table. -/
structure TypeId where
  row : UInt32
deriving DecidableEq

/-- A row of a module's field table. -/
structure FieldId where
  row : UInt32
deriving DecidableEq

/-- A field, told apart from the fields of all other modules. -/
structure QualifiedField where
  home : ModuleId
  field : FieldId
deriving DecidableEq

/-! ## Module identities -/

/-- The identity as messages show it. -/
def ModuleId.describe (m : ModuleId) : String :=
  "ModuleId(" ++ Decimal.write m.raw.toNat ++ ")"

/-! ## Type rows -/

namespace TypeId

/-- The nil row. -/
def nil : TypeId := ⟨0⟩

/-- Does the row name nothing? -/
def isNil (t : TypeId) : Bool := t.row == 0

/-- The position of the row in declaration order, meaningful for rows other than nil. -/
def index (t : TypeId) : Nat := t.row.toNat - 1

/-- The row as messages show it. -/
def describe (t : TypeId) : String :=
  if t.isNil then "TypeDefId::NIL" else "TypeDefId(" ++ Decimal.write t.row.toNat ++ ")"

end TypeId

/-! ## Field rows -/

namespace FieldId

/-- The nil row. -/
def nil : FieldId := ⟨0⟩

/-- Does the row name nothing? -/
def isNil (f : FieldId) : Bool := f.row == 0

/-- The position of the row in declaration order, meaningful for rows other than nil. -/
def index (f : FieldId) : Nat := f.row.toNat - 1

/-- The row as messages show it. -/
def describe (f : FieldId) : String :=
  if f.isNil then "FieldDefId::NIL" else "FieldDefId(" ++ Decimal.write f.row.toNat ++ ")"

end FieldId

/-! ## Qualified fields -/

namespace QualifiedField

/-- The field as messages show it. -/
def describe (f : QualifiedField) : String :=
  "FieldRef(" ++ Decimal.write f.home.raw.toNat ++ ":" ++ Decimal.write f.field.row.toNat ++ ")"

/-- Fields are ordered by module first and by row within a module. -/
def le (f g : QualifiedField) : Bool :=
  f.home.raw < g.home.raw || (f.home.raw == g.home.raw && f.field.row ≤ g.field.row)

/-- The fields of a list in ascending order, each once. -/
def ascending (fields : List QualifiedField) : List QualifiedField :=
  (fields.mergeSort le).eraseDups

end QualifiedField

/-! ## Type handles -/

/-- A reference to a type, as it stands in a signature. Only a row of the module's own type table can
be looked up in that module; the other two tables point elsewhere. -/
inductive TypeHandle where
  | typeDef (type : TypeId)
  | typeRef (row : UInt32)
  | typeSpec (row : UInt32)
deriving DecidableEq

namespace TypeHandle

/-- The largest row whose coded handle fits the compressed integers of a signature. -/
def largestRow : UInt32 := 0x7FFFFFF

/-- The row that the handle names, in whichever table. -/
def row : TypeHandle → UInt32
  | typeDef type => type.row
  | typeRef row => row
  | typeSpec row => row

/-- The number of the handle's table, which is the tag of its code. -/
def tag : TypeHandle → UInt32
  | typeDef _ => 0
  | typeRef _ => 1
  | typeSpec _ => 2

/-- The handle as one word: the row times four, plus the tag. Only the low thirty bits of the row
have room. -/
def coded (h : TypeHandle) : UInt32 := h.row * 4 + h.tag

/-- The handle that a word stands for; nothing for the reserved tag `3`. -/
def ofCoded? (coded : UInt32) : Option TypeHandle :=
  if coded % 4 = 0 then some (typeDef ⟨coded / 4⟩)
  else if coded % 4 = 1 then some (typeRef (coded / 4))
  else if coded % 4 = 2 then some (typeSpec (coded / 4))
  else none

/-- The row of the module's own type table that the handle names, unless it is nil. Whether the row
exists is not asked. -/
def localType? : TypeHandle → Option TypeId
  | typeDef type => if type.isNil then none else some type
  | typeRef _ => none
  | typeSpec _ => none

/-- The handle as messages show it. -/
def describe : TypeHandle → String
  | typeDef type => "TypeDef(" ++ type.describe ++ ")"
  | typeRef row => "TypeRef(" ++ Decimal.write row.toNat ++ ")"
  | typeSpec row => "TypeSpec(" ++ Decimal.write row.toNat ++ ")"

/-- A tag is one of three. -/
theorem toNat_tag_lt (h : TypeHandle) : h.tag.toNat < 3 := by
  cases h <;> simp [tag]

/-- The code of a handle in natural numbers. -/
theorem toNat_coded (h : TypeHandle) :
    h.coded.toNat = (h.row.toNat * 4 + h.tag.toNat) % UInt32.size := by
  simp only [coded, UInt32.toNat_add, UInt32.toNat_mul, UInt32.size]
  show ((h.row.toNat * 4) % 4294967296 + h.tag.toNat) % 4294967296 = _
  omega

/-- A handle whose row fits thirty bits is read back from its code. -/
theorem ofCoded?_coded (h : TypeHandle) (hfits : h.row.toNat < 1073741824) :
    ofCoded? h.coded = some h := by
  have htag := h.toNat_tag_lt
  have hcode := h.toNat_coded
  rw [UInt32.size, Nat.mod_eq_of_lt (by omega)] at hcode
  have hrem : (h.coded % 4).toNat = h.tag.toNat := by
    rw [UInt32.toNat_mod, hcode]
    show _ % 4 = _
    omega
  have hquot : h.coded / 4 = h.row := by
    rw [← UInt32.toNat_inj, UInt32.toNat_div, hcode]
    show _ / 4 = _
    omega
  rw [UInt32.toNat_inj] at hrem
  unfold ofCoded?
  rw [hrem, hquot]
  cases h <;> simp [tag, row]

/-- A word that decodes is the code of the handle it decodes to. -/
theorem coded_of_ofCoded? {word : UInt32} {h : TypeHandle} (hdecode : ofCoded? word = some h) :
    h.coded = word := by
  have hbound : word.toNat < 4294967296 := word.toNat_lt
  have hsplit : (word / 4 * 4 + word % 4).toNat = word.toNat := by
    rw [UInt32.toNat_add, UInt32.toNat_mul, UInt32.toNat_div, UInt32.toNat_mod]
    show (word.toNat / 4 * 4 % 4294967296 + word.toNat % 4) % 4294967296 = _
    omega
  rw [UInt32.toNat_inj] at hsplit
  unfold ofCoded? at hdecode
  split at hdecode
  · next htag =>
    cases hdecode
    rwa [htag] at hsplit
  · split at hdecode
    · next htag =>
      cases hdecode
      rwa [htag] at hsplit
    · split at hdecode
      · next htag =>
        cases hdecode
        rwa [htag] at hsplit
      · cases hdecode

/-- The tag of a word is its two lowest bits. -/
theorem toNat_and_three (word : UInt32) : (word &&& 3).toNat = word.toNat % 4 := by
  rw [UInt32.toNat_and]
  exact Nat.and_two_pow_sub_one_eq_mod word.toNat 2

/-- A word stands for a handle unless its tag is the reserved one. -/
theorem isSome_ofCoded?_iff {word : UInt32} : (ofCoded? word).isSome ↔ word.toNat % 4 ≠ 3 := by
  have hrem (tag : UInt32) : word % 4 = tag ↔ word.toNat % 4 = tag.toNat := by
    rw [← UInt32.toNat_inj, UInt32.toNat_mod]
    exact Iff.rfl
  have htag : word.toNat % 4 < 4 := Nat.mod_lt _ (by decide)
  unfold ofCoded?
  simp only [hrem, UInt32.reduceToNat]
  split
  · next hzero => simp [hzero]
  · split
    · next hone => simp [hone]
    · split
      · next htwo => simp [htwo]
      · simp
        omega

end TypeHandle

end StaticStorage
