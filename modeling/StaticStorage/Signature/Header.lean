import StaticStorage.Text.Hex

/-!
# Signature headers

Every signature opens with one byte. Its low four bits say what kind of signature follows; the high
bits carry flags that a field signature does not use and that are ignored here.
-/

namespace StaticStorage

/-- The byte that opens a signature. -/
structure SignatureHeader where
  raw : UInt8
deriving DecidableEq

namespace SignatureHeader

/-- The kind of a field signature. -/
def fieldKind : UInt8 := 0x06

/-- The header of a plain field signature. -/
def field : SignatureHeader := ⟨fieldKind⟩

/-- The kind of the signature: the low four bits. -/
def kind (h : SignatureHeader) : UInt8 := h.raw % 16

/-- Does a field signature follow? -/
def isField (h : SignatureHeader) : Bool := h.kind == fieldKind

/-- The low four bits are all that counts. -/
theorem isField_iff {h : SignatureHeader} : h.isField ↔ h.raw &&& 0x0F = 0x06 := by
  have hlow : h.raw % 16 = h.raw &&& 0x0F := by
    rw [← UInt8.toNat_inj, UInt8.toNat_mod, UInt8.toNat_and]
    exact (Nat.and_two_pow_sub_one_eq_mod h.raw.toNat 4).symm
  rw [isField, kind, hlow, fieldKind, beq_iff_eq]

/-- The header as listings show it. -/
def describe (h : SignatureHeader) : String := "SignatureHeader(0x" ++ Hex.byte h.raw ++ ")"

end SignatureHeader

end StaticStorage
