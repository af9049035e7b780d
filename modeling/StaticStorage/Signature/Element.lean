import StaticStorage.Text.Hex

/-!
# Element tags

A signature is built from one-byte element tags. Every byte is a tag: producers may write tags that
have no name here, and those are kept as they are, so that it is the storage rules that decide what
becomes of them. `Element.table` lists the named tags together with what each means for storage; a tag
that the table does not hold is unrecognized.
-/

namespace StaticStorage

/-- What an element tag means for the storage of a field. -/
inductive ElementCategory where
  /-- A scalar of one byte. -/
  | oneByte
  /-- A scalar of two bytes. -/
  | twoByte
  /-- A scalar of four bytes. -/
  | fourByte
  /-- A scalar as wide as a pointer, unmanaged and function pointers included. -/
  | pointerSized
  /-- A scalar of eight bytes. -/
  | eightByte
  /-- An object reference or a type variable: a pointer that the collector follows. -/
  | reference
  /-- A managed pointer. -/
  | byRef
  /-- A value type, whose handle follows the tag. -/
  | valueType
  /-- Anything else. -/
  | unrecognized
deriving DecidableEq

/-- One element tag of a signature. -/
structure Element where
  raw : UInt8
deriving DecidableEq

namespace Element

/-- A value type; its handle follows. -/
def valueType : Element := ⟨0x11⟩

/-- A class; its handle follows. -/
def classType : Element := ⟨0x12⟩

/-- An instantiated generic type; its head and arguments follow. -/
def genericInstance : Element := ⟨0x15⟩

/-- A modifier that readers must understand; its type's handle follows. -/
def requiredModifier : Element := ⟨0x1F⟩

/-- A modifier that readers may ignore; its type's handle follows. -/
def optionalModifier : Element := ⟨0x20⟩

/-- The mark that may stand in front of an element. -/
def sentinel : Element := ⟨0x41⟩

/-- The named tags: the byte, its mnemonic and its storage category. -/
def table : List (UInt8 × String × ElementCategory) :=
  [(0x00, "end", .unrecognized), (0x01, "void", .unrecognized), (0x02, "bool", .oneByte),
   (0x03, "char", .twoByte), (0x04, "i1", .oneByte), (0x05, "u1", .oneByte),
   (0x06, "i2", .twoByte), (0x07, "u2", .twoByte), (0x08, "i4", .fourByte),
   (0x09, "u4", .fourByte), (0x0A, "i8", .eightByte), (0x0B, "u8", .eightByte),
   (0x0C, "r4", .fourByte), (0x0D, "r8", .eightByte), (0x0E, "string", .reference),
   (0x0F, "ptr", .pointerSized), (0x10, "byref", .byRef), (0x11, "valuetype", .valueType),
   (0x12, "class", .reference), (0x13, "var", .reference), (0x14, "array", .reference),
   (0x15, "genericinst", .unrecognized), (0x16, "typedbyref", .unrecognized),
   (0x18, "i", .pointerSized), (0x19, "u", .pointerSized), (0x1B, "fnptr", .pointerSized),
   (0x1C, "object", .reference), (0x1D, "szarray", .reference), (0x1E, "mvar", .reference),
   (0x1F, "cmod_reqd", .unrecognized), (0x20, "cmod_opt", .unrecognized),
   (0x21, "internal", .unrecognized), (0x41, "sentinel", .unrecognized),
   (0x45, "pinned", .unrecognized)]

/-- The mnemonic of a named tag. -/
def name? (e : Element) : Option String :=
  (table.lookup e.raw).map (·.1)

/-- What the tag means for storage. -/
def category (e : Element) : ElementCategory :=
  match table.lookup e.raw with
  | some (_, category) => category
  | none => .unrecognized

/-- Does a modifier type follow the tag, to be skipped? -/
def isModifier (e : Element) : Bool :=
  e == requiredModifier || e == optionalModifier

/-- The tag as messages show it: its mnemonic, or the byte. -/
def display (e : Element) : String :=
  match e.name? with
  | some name => name
  | none => "0x" ++ Hex.byte e.raw

/-- The tag with its type's name, as listings show it. -/
def describe (e : Element) : String :=
  match e.name? with
  | some name => "ElementType::" ++ name
  | none => "ElementType(0x" ++ Hex.byte e.raw ++ ")"

end Element

/-- The name of a category. -/
def ElementCategory.name : ElementCategory → String
  | oneByte => "OneByte"
  | twoByte => "TwoByte"
  | fourByte => "FourByte"
  | pointerSized => "PointerSized"
  | eightByte => "EightByte"
  | reference => "Reference"
  | byRef => "ByRef"
  | valueType => "ValueType"
  | unrecognized => "Unrecognized"

end StaticStorage
