import StaticStorage.Blob.Compressed
import StaticStorage.Signature.Element
import StaticStorage.Signature.Header
import StaticStorage.Word

/-!
# Writing signatures

A signature is written part by part behind a header byte. A value that no compressed integer can hold
spoils the signature: the first such value is remembered, later parts cannot clear it, and it is what
finishing the signature reports.
-/

namespace StaticStorage

/-- A part of a signature. -/
inductive SignaturePart where
  /-- A bare element tag. -/
  | element (e : Element)
  /-- The sentinel tag. -/
  | sentinel
  /-- A modifier and the type that it names. -/
  | modifier (required : Bool) (type : TypeHandle)
  /-- A value type. -/
  | valueType (type : TypeHandle)
  /-- A class. -/
  | classType (type : TypeHandle)
  /-- An instance of a generic value type or class, its arguments written as bare tags. -/
  | genericInstance (isValueType : Bool) (definition : TypeHandle) (arguments : List Element)
  /-- A bare type handle. -/
  | typeHandle (type : TypeHandle)
  /-- A bare compressed integer. -/
  | compressed (value : UInt32)
  /-- Bytes as they are. -/
  | raw (bytes : List UInt8)
deriving DecidableEq

/-- A signature in the making: the bytes so far, and the first value that could not be written. -/
structure SignatureWriter where
  bytes : List UInt8
  rejected : Option BlobError
deriving DecidableEq

namespace SignatureWriter

/-- A signature that consists of its header. -/
def start (header : SignatureHeader) : SignatureWriter := ⟨[header.raw], none⟩

/-- Write an element tag. -/
def element (w : SignatureWriter) (e : Element) : SignatureWriter :=
  { w with bytes := w.bytes ++ [e.raw] }

/-- Write bytes as they are. -/
def raw (w : SignatureWriter) (bytes : List UInt8) : SignatureWriter :=
  { w with bytes := w.bytes ++ bytes }

/-- Write a compressed integer, unless the signature is already spoilt. -/
def compressed (w : SignatureWriter) (value : UInt32) : SignatureWriter :=
  match w.rejected with
  | some _ => w
  | none =>
    match Compressed.append w.bytes value with
    | .ok bytes => { w with bytes := bytes }
    | .error fault => { w with rejected := some fault }

/-- Write a type handle. -/
def typeHandle (w : SignatureWriter) (type : TypeHandle) : SignatureWriter :=
  w.compressed type.coded

/-- Write a modifier and its type. -/
def modifier (w : SignatureWriter) (required : Bool) (type : TypeHandle) : SignatureWriter :=
  (w.element (if required then .requiredModifier else .optionalModifier)).typeHandle type

/-- Write a value type. -/
def valueType (w : SignatureWriter) (type : TypeHandle) : SignatureWriter :=
  (w.element .valueType).typeHandle type

/-- Write a class. -/
def classType (w : SignatureWriter) (type : TypeHandle) : SignatureWriter :=
  (w.element .classType).typeHandle type

/-- Write an instance of a generic type: the generic mark, the definition, the number of arguments and
the arguments. -/
def genericInstance (w : SignatureWriter) (isValueType : Bool) (definition : TypeHandle)
    (arguments : List Element) : SignatureWriter :=
  let marked := w.element .genericInstance
  let headed := if isValueType then marked.valueType definition else marked.classType definition
  arguments.foldl element (headed.compressed (Word.clamp arguments.length))

/-- Write one part. -/
def add (w : SignatureWriter) : SignaturePart → SignatureWriter
  | .element e => w.element e
  | .sentinel => w.element .sentinel
  | .modifier required type => w.modifier required type
  | .valueType type => w.valueType type
  | .classType type => w.classType type
  | .genericInstance isValueType definition arguments =>
    w.genericInstance isValueType definition arguments
  | .typeHandle type => w.typeHandle type
  | .compressed value => w.compressed value
  | .raw bytes => w.raw bytes

/-- Write parts in order. -/
def addAll (w : SignatureWriter) (parts : List SignaturePart) : SignatureWriter := parts.foldl add w

/-- The whole signature, or the first value that could not be written. -/
def finish (w : SignatureWriter) : Except BlobError (List UInt8) :=
  match w.rejected with
  | some fault => .error fault
  | none => .ok w.bytes

end SignatureWriter

end StaticStorage
