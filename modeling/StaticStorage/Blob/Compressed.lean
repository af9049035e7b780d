import StaticStorage.Blob.Cursor
import StaticStorage.Handle

/-!
# Compressed integers

Unsigned integers below `2 ^ 29` are written in one, two or four bytes, most significant byte first, and
the first byte says how many:

* below `0x80`: the byte is the value;
* `0x80` to `0xBF`: two bytes, whose value the first byte carries on top of `0x80`;
* `0xC0` to `0xDF`: four bytes, whose value the first byte carries on top of `0xC0`;
* `0xE0` and above begin no integer.

A writer uses the shortest form. A reader accepts every form. Type handles travel as the compressed
integer of their code.
-/

namespace StaticStorage

namespace Compressed

/-- The largest value that can be written. -/
def largest : UInt32 := 0x1FFFFFFF

/-- The low eight bits of `n`. -/
def lowByte (n : Nat) : UInt8 := UInt8.ofNat n

/-- The shortest form of a value. -/
def encode (value : UInt32) : Except BlobError (List UInt8) :=
  let n := value.toNat
  if n < 0x80 then .ok [lowByte n]
  else if n < 0x4000 then .ok [lowByte (0x80 + n / 0x100), lowByte n]
  else if value ≤ largest then
    .ok [lowByte (0xC0 + n / 0x1000000), lowByte (n / 0x10000), lowByte (n / 0x100), lowByte n]
  else .error (.tooLarge value)

/-- Append a value to a buffer. -/
def append (buffer : List UInt8) (value : UInt32) : Except BlobError (List UInt8) :=
  (encode value).map (buffer ++ ·)

/-- Append values in order, passing over those that cannot be written. With each value goes the fault it
met, if any, and the buffer after it. -/
def appendEach (buffer : List UInt8) : List UInt32 → List (Option BlobError × List UInt8)
  | [] => []
  | value :: rest =>
    match append buffer value with
    | .ok longer => (none, longer) :: appendEach longer rest
    | .error fault => (some fault, buffer) :: appendEach buffer rest

/-- The number that bytes spell, most significant byte first. -/
def bigEndian (bytes : List UInt8) : UInt32 :=
  UInt32.ofNat (bytes.foldl (fun n b => 0x100 * n + b.toNat) 0)

end Compressed

namespace Cursor

/-- Read a compressed integer. A byte that begins none is consumed, and so are the bytes of an integer
that the blob breaks off. -/
def compressed (c : Cursor) : Read UInt32 :=
  c.byte.bind fun lead c₁ =>
    if lead < 0x80 then .done (Compressed.bigEndian [lead]) c₁
    else if lead < 0xC0 then
      c₁.byte.bind fun b₁ c₂ => .done (Compressed.bigEndian [lead - 0x80, b₁]) c₂
    else if lead < 0xE0 then
      c₁.byte.bind fun b₁ c₂ =>
        c₂.byte.bind fun b₂ c₃ =>
          c₃.byte.bind fun b₃ c₄ => .done (Compressed.bigEndian [lead - 0xC0, b₁, b₂, b₃]) c₄
    else .failed (.reservedLead c.offset lead) c₁

/-- Read a type handle: a compressed integer whose tag is not the reserved one. -/
def typeHandle (c : Cursor) : Read TypeHandle :=
  c.compressed.bind fun word next =>
    match TypeHandle.ofCoded? word with
    | some handle => .done handle next
    | none => .failed (.reservedTag c.offset word) next

/-- An integer that was read took at least one byte. -/
theorem length_lt_of_compressed {c next : Cursor} {value : UInt32}
    (hread : c.compressed = .done value next) : next.rest.length < c.rest.length := by
  obtain ⟨offset, rest⟩ := c
  match rest with
  | [] => simp [compressed, byte, Read.bind] at hread
  | lead :: rest₁ =>
    simp only [compressed, byte, Read.bind] at hread
    split at hread
    · cases hread
      simp
    · split at hread
      · match rest₁ with
        | [] => cases hread
        | _ :: _ =>
          cases hread
          simp only [List.length_cons]
          omega
      · split at hread
        · match rest₁ with
          | [] => cases hread
          | [_] => cases hread
          | [_, _] => cases hread
          | _ :: _ :: _ :: _ =>
            cases hread
            simp only [List.length_cons]
            omega
        · cases hread

end Cursor

end StaticStorage
