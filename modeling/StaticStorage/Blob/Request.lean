import StaticStorage.Blob.Compressed
import StaticStorage.Signature.Element
import StaticStorage.Signature.Header

/-!
# Runs of reads

The five things that can be asked of a cursor, as data, and what a sequence of them comes to. A run goes
on after a failure, from the cursor that the failed read left.
-/

namespace StaticStorage

/-- One thing to read. -/
inductive ReadRequest where
  | byte
  | element
  | header
  | compressed
  | typeHandle
deriving DecidableEq

/-- The value that a request produces. -/
inductive ReadValue where
  | byte (b : UInt8)
  | element (e : Element)
  | header (h : SignatureHeader)
  | compressed (value : UInt32)
  | typeHandle (handle : TypeHandle)
deriving DecidableEq

namespace Cursor

/-- Read an element tag. -/
def element (c : Cursor) : Read Element := c.byte.map Element.mk

/-- Read a signature header. -/
def header (c : Cursor) : Read SignatureHeader := c.byte.map SignatureHeader.mk

/-- Answer one request. -/
def read (c : Cursor) : ReadRequest → Read ReadValue
  | .byte => c.byte.map .byte
  | .element => c.element.map .element
  | .header => c.header.map .header
  | .compressed => c.compressed.map .compressed
  | .typeHandle => c.typeHandle.map .typeHandle

/-- Answer requests in order, each from the cursor that the one before it left. -/
def readAll (c : Cursor) : List ReadRequest → List (Read ReadValue)
  | [] => []
  | request :: more => c.read request :: (c.read request).next.readAll more

/-- The cursor that requests leave when they are answered in order. -/
def afterAll (c : Cursor) : List ReadRequest → Cursor
  | [] => c
  | request :: more => (c.read request).next.afterAll more

/-- An element that was read took a byte. -/
theorem length_lt_of_element {c next : Cursor} {e : Element} (hread : c.element = .done e next) :
    next.rest.length < c.rest.length := by
  unfold element Read.map Read.bind at hread
  split at hread
  · next hbyte =>
    cases hread
    exact length_lt_of_byte hbyte
  · cases hread

end Cursor

end StaticStorage
