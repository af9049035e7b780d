import StaticStorage.Blob.Error

/-!
# Reading forward through a blob

A cursor holds what is left of a blob and how much of it has been consumed. A read takes bytes off the
front and leaves a cursor behind, also when it fails: bytes that a failed read has consumed stay consumed.

`Read.bind` runs one read after another. It stops at the first failure, at the cursor which that failure
left.
-/

namespace StaticStorage

/-- A position in a blob: the number of bytes consumed, and the bytes still to come. -/
structure Cursor where
  offset : Nat
  rest : List UInt8
deriving DecidableEq

/-- What a read came to: a value or a fault, and the cursor that it left. -/
inductive Read (α : Type) where
  | done (value : α) (next : Cursor)
  | failed (fault : BlobError) (next : Cursor)
deriving DecidableEq

namespace Read

/-- The cursor after the read. -/
def next {α : Type} : Read α → Cursor
  | done _ next => next
  | failed _ next => next

/-- The value or the fault, without the cursor. -/
def outcome {α : Type} : Read α → Except BlobError α
  | done value _ => .ok value
  | failed fault _ => .error fault

/-- Read on after a value; a fault ends the reading. -/
def bind {α β : Type} (r : Read α) (continue_ : α → Cursor → Read β) : Read β :=
  match r with
  | done value next => continue_ value next
  | failed fault next => failed fault next

/-- Apply a function to the value read. -/
def map {α β : Type} (f : α → β) (r : Read α) : Read β :=
  r.bind fun value next => done (f value) next

end Read

namespace Cursor

/-- The beginning of a blob. -/
def start (blob : List UInt8) : Cursor := ⟨0, blob⟩

/-- The number of bytes still to come. -/
def remaining (c : Cursor) : Nat := c.rest.length

/-- Read one byte. At the end of the blob nothing moves. -/
def byte (c : Cursor) : Read UInt8 :=
  match c.rest with
  | [] => .failed (.unexpectedEnd c.offset) c
  | b :: rest => .done b ⟨c.offset + 1, rest⟩

/-- A byte that was read is no longer among the bytes to come. -/
theorem length_lt_of_byte {c next : Cursor} {b : UInt8} (hread : c.byte = .done b next) :
    next.rest.length < c.rest.length := by
  unfold byte at hread
  split at hread
  · cases hread
  · next hrest =>
    cases hread
    simp [hrest]

end Cursor

end StaticStorage
