import StaticStorage.Text.Hex
import StaticStorage.Text.Decimal

/-!
# Faults of a signature blob

The ways in which a blob cannot be read or written. A fault of reading says where: at the first missing
byte, or at the first byte of the value that makes no sense.
-/

namespace StaticStorage

/-- Why a value could not be read from a blob or written to one. -/
inductive BlobError where
  /-- The blob ends at `offset`, in the middle of a value. -/
  | unexpectedEnd (offset : Nat)
  /-- The compressed integer at `offset` begins with a byte that begins none. -/
  | reservedLead (offset : Nat) (lead : UInt8)
  /-- The type handle at `offset` has the reserved tag. -/
  | reservedTag (offset : Nat) (coded : UInt32)
  /-- The value is too large for a compressed integer. -/
  | tooLarge (value : UInt32)
deriving DecidableEq

/-- The fault in words. -/
def BlobError.message : BlobError → String
  | unexpectedEnd offset => "unexpected end of blob at offset " ++ Decimal.write offset
  | reservedLead offset lead =>
    "invalid compressed integer lead byte 0x" ++ Hex.byte lead ++ " at offset " ++ Decimal.write offset
  | reservedTag offset coded =>
    "invalid type handle coded index 0x" ++ Hex.upper coded.toNat ++ " at offset "
      ++ Decimal.write offset
  | tooLarge value =>
    "value 0x" ++ Hex.upper value.toNat ++ " exceeds the compressed integer range"

end StaticStorage
