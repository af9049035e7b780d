import StaticStorage.Proofs.Blob.Locality
import StaticStorage.Proofs.Signature.Fault

/-!
# Runs of reads

Whatever is read from a blob, in whichever order and with whatever faults in between, the cursor goes forward
and stays within the blob: the bytes to come are those of the blob from the offset on. So a read knows nothing
of what has been read before it, but how much. A fault leaves the cursor behind what has been consumed: at the
end of a blob that ended too early, behind a byte that begins no integer, behind the integer of a handle with
the reserved tag.

* `Cursor.local_read` — every read sees only the bytes that it passes over.
* `Cursor.read_eq_failed` — the faults of a read, and where they leave the cursor.
* `Cursor.StandsIn.afterAll` — a run goes forward within its blob.
* `Cursor.runsOn` — what all of this says of each read in a run.
-/

namespace StaticStorage

namespace Cursor

variable {c last : Cursor} {blob : List UInt8} {request : ReadRequest} {fault : BlobError}

/-! ## One read -/

theorem localAt_header (c : Cursor) : LocalAt header c := (localAt_byte c).map SignatureHeader.mk

/-- Every read sees only the bytes that it passes over. -/
theorem local_read (c : Cursor) (request : ReadRequest) :
    (c.read request).Local c fun more => (c.extend more).read request := by
  cases request with
  | byte => exact (localAt_byte c).map ReadValue.byte
  | element => exact (localAt_element c).map ReadValue.element
  | header => exact (localAt_header c).map ReadValue.header
  | compressed => exact (localAt_compressed c).map ReadValue.compressed
  | typeHandle => exact (localAt_typeHandle c).map ReadValue.typeHandle

/-- A read fails where the blob ends, at a byte that begins no integer or at an integer with the reserved tag.
The byte has been consumed then, or the integer. -/
theorem read_eq_failed (h : c.read request = .failed fault last) :
    fault.IsEnd ∨ (∃ lead, fault = .reservedLead c.offset lead ∧ c.byte = .done lead last) ∨
      ∃ coded, fault = .reservedTag c.offset coded ∧ c.compressed = .done coded last := by
  have hinteger (h : c.compressed = .failed fault last) : fault.IsEnd ∨
      ∃ lead, fault = .reservedLead c.offset lead ∧ c.byte = .done lead last :=
    (compressed_eq_failed h).imp_right fun ⟨lead, hlead, _, hfault⟩ => ⟨lead, hfault, hlead⟩
  cases request with
  | byte => exact .inl (byte_eq_failed (Read.map_eq_failed.1 h))
  | element => exact .inl (element_eq_failed (Read.map_eq_failed.1 h))
  | header => exact .inl (byte_eq_failed (Read.map_eq_failed.1 (Read.map_eq_failed.1 h)))
  | compressed => exact (hinteger (Read.map_eq_failed.1 h)).imp_right .inl
  | typeHandle =>
    rcases typeHandle_eq_failed (Read.map_eq_failed.1 h) with h | ⟨coded, hcoded, -, hfault⟩
    · exact (hinteger h).imp_right .inl
    · exact .inr (.inr ⟨coded, hfault, hcoded⟩)

/-- Of a handle with the reserved tag, the integer is consumed and nothing more. -/
theorem of_read_eq_reservedTag {offset : ℕ} {coded : UInt32}
    (h : c.read request = .failed (.reservedTag offset coded) last) :
    offset = c.offset ∧ c.compressed = .done coded last := by
  rcases read_eq_failed h with ⟨_, hend⟩ | ⟨_, hfault, -⟩ | ⟨_, hfault, hcoded⟩
  · cases hend
  · cases hfault
  · obtain ⟨rfl, rfl⟩ := BlobError.reservedTag.inj hfault
    exact ⟨rfl, hcoded⟩

/-- Where no bytes are to come, every read fails and nothing moves. -/
theorem read_of_rest_eq_nil (n : ℕ) (request : ReadRequest) :
    (⟨n, []⟩ : Cursor).read request = .failed (.unexpectedEnd n) ⟨n, []⟩ := by
  cases request <;> rfl

/-! ## Positions in a blob -/

/-- The bytes to come are those of the blob from the offset on. -/
def StandsIn (c : Cursor) (blob : List UInt8) : Prop := ∃ front, (start blob).Passes front c

theorem standsIn_start (blob : List UInt8) : (start blob).StandsIn blob := ⟨[], passes_nil.2 rfl⟩

namespace StandsIn

variable {next : Cursor} {bytes : List UInt8}

/-- The cursor moves within the blob. -/
theorem passes (h : c.StandsIn blob) (hpasses : c.Passes bytes next) : next.StandsIn blob := by
  obtain ⟨front, hfront⟩ := h
  exact ⟨front ++ bytes, passes_append.2 ⟨c, hfront, hpasses⟩⟩

theorem rest_eq (h : c.StandsIn blob) : c.rest = blob.drop c.offset := by
  obtain ⟨front, hblob, hoffset⟩ := h
  dsimp only [start] at hblob hoffset
  rw [hblob, hoffset, Nat.zero_add, List.drop_left]

/-- What has been consumed and what is to come make up the blob. -/
theorem offset_add_remaining (h : c.StandsIn blob) : c.offset + c.remaining = blob.length := by
  obtain ⟨front, hblob, hoffset⟩ := h
  dsimp only [start] at hblob hoffset
  rw [hblob, hoffset, remaining, List.length_append, Nat.zero_add]

theorem last_eq (h : c.StandsIn blob) : c.last = ⟨blob.length, []⟩ := by
  rw [last, ← h.offset_add_remaining]
  rfl

/-- A position in a blob is known from its offset and the bytes of the blob from there on. -/
theorem eq_of_drop_eq {c' : Cursor} {blob' : List UInt8} (h : c.StandsIn blob) (h' : c'.StandsIn blob')
    (hoffset : c'.offset = c.offset) (hdrop : blob'.drop c.offset = blob.drop c.offset) : c' = c := by
  have hrest : c'.rest = c.rest := by rw [h'.rest_eq, h.rest_eq, hoffset, hdrop]
  cases c
  cases c'
  cases hoffset
  cases hrest
  rfl

/-- A blob that ended too early is consumed. -/
theorem of_read_eq_unexpectedEnd {offset : ℕ} (h : c.StandsIn blob)
    (hread : c.read request = .failed (.unexpectedEnd offset) last) :
    offset = blob.length ∧ last = ⟨blob.length, []⟩ := by
  have hlast := (local_read c request).ranOut ⟨offset, last, hread⟩
  rw [hread, h.last_eq] at hlast
  obtain ⟨hfault, rfl⟩ := Read.failed.inj hlast
  exact ⟨BlobError.unexpectedEnd.inj hfault, rfl⟩

/-- Of an integer that none begins with, one byte is consumed. -/
theorem of_read_eq_reservedLead {offset : ℕ} {lead : UInt8} (h : c.StandsIn blob)
    (hread : c.read request = .failed (.reservedLead offset lead) last) :
    offset = c.offset ∧ blob[offset]? = some lead ∧ last.offset = c.offset + 1 := by
  rcases read_eq_failed hread with ⟨_, hend⟩ | ⟨_, hfault, hbyte⟩ | ⟨_, hfault, -⟩
  · cases hend
  · obtain ⟨rfl, rfl⟩ := BlobError.reservedLead.inj hfault
    obtain ⟨hrest, hoffset⟩ := byte_eq_done.1 hbyte
    have hlead : blob[c.offset]? = some lead := by
      rw [← Nat.add_zero c.offset, ← List.getElem?_drop, ← h.rest_eq, hrest]
      rfl
    exact ⟨rfl, hlead, hoffset⟩
  · cases hfault

/-- A read leaves a position in the blob. -/
theorem read (h : c.StandsIn blob) (request : ReadRequest) : (c.read request).next.StandsIn blob := by
  obtain ⟨bytes, hpasses⟩ := (local_read c request).passes
  exact h.passes hpasses

/-- A run of reads leaves a position in the blob. -/
theorem afterAll (h : c.StandsIn blob) (requests : List ReadRequest) : (c.afterAll requests).StandsIn blob := by
  induction requests generalizing c with
  | nil => exact h
  | cons request more ih => exact ih (h.read request)

end StandsIn

/-! ## Runs -/

/-- A run of reads goes forward. -/
theorem offset_le_afterAll (c : Cursor) (requests : List ReadRequest) :
    c.offset ≤ (c.afterAll requests).offset := by
  induction requests generalizing c with
  | nil => exact Nat.le_refl _
  | cons request more ih =>
    obtain ⟨bytes, -, hoffset⟩ := (local_read c request).passes
    have hstep : c.offset ≤ (c.read request).next.offset := by omega
    exact Nat.le_trans hstep (ih _)

/-- The later reads of a run begin where the earlier ones have ended. -/
theorem readAll_append (c : Cursor) (before after : List ReadRequest) :
    c.readAll (before ++ after) = c.readAll before ++ (c.afterAll before).readAll after := by
  induction before generalizing c with
  | nil => rfl
  | cons request before ih => exact congrArg (c.read request :: ·) (ih (c.read request).next)

/-- Where no bytes are to come, all reads of a run fail alike. -/
theorem eq_failed_of_mem_readAll {n : ℕ} {requests : List ReadRequest} {r : Read ReadValue}
    (hr : r ∈ (⟨n, []⟩ : Cursor).readAll requests) : r = .failed (.unexpectedEnd n) ⟨n, []⟩ := by
  induction requests with
  | nil => cases hr
  | cons request more ih =>
    rw [readAll, read_of_rest_eq_nil] at hr
    rcases List.mem_cons.1 hr with rfl | hr
    · rfl
    · exact ih hr

/-- What is to be said of a read in a run, in which other reads come before it and after it. The cursor is that
from which it reads. -/
structure RunsOn (blob : List UInt8) (before : List ReadRequest) (request : ReadRequest)
    (after : List ReadRequest) (c : Cursor) : Prop where
  readAll_eq : (start blob).readAll (before ++ request :: after) =
    (start blob).readAll before ++ c.read request :: (c.read request).next.readAll after
  offset_le : c.offset ≤ (c.read request).next.offset
  /-- The reads that follow do not go back either, and all end within the blob. -/
  offset_le_afterAll : (c.read request).next.offset ≤ ((c.read request).next.afterAll after).offset
  afterAll_offset_le : ((c.read request).next.afterAll after).offset ≤ blob.length
  offset_add_remaining : c.offset + c.remaining = blob.length ∧
    (c.read request).next.offset + (c.read request).next.remaining = blob.length
  /-- Of all that came before, a read sees the offset only, and of the blob the bytes from there on. -/
  read_eq : ∀ blob' before', ((start blob').afterAll before').offset = c.offset →
    blob'.drop c.offset = blob.drop c.offset →
      ((start blob').afterAll before').read request = c.read request
  /-- A blob that ended too early is consumed, and every read that follows fails in the same way. -/
  unexpectedEnd : ∀ offset last, c.read request = .failed (.unexpectedEnd offset) last →
    offset = blob.length ∧ last = ⟨blob.length, []⟩ ∧
      ∀ r ∈ last.readAll after, r = .failed (.unexpectedEnd offset) last
  /-- Of an integer that none begins with, this one byte is consumed. -/
  reservedLead : ∀ offset lead last, c.read request = .failed (.reservedLead offset lead) last →
    offset = c.offset ∧ blob[offset]? = some lead ∧ last.offset = c.offset + 1
  /-- Of a handle with the reserved tag, the integer is consumed and nothing more. -/
  reservedTag : ∀ offset coded last, c.read request = .failed (.reservedTag offset coded) last →
    offset = c.offset ∧ c.compressed = .done coded last

/-- Every read in every run goes forward within the blob, sees only what it passes over, and leaves the cursor
where its fault says. -/
theorem runsOn (blob : List UInt8) (before : List ReadRequest) (request : ReadRequest)
    (after : List ReadRequest) : RunsOn blob before request after ((start blob).afterAll before) := by
  have hc : ((start blob).afterAll before).StandsIn blob := (standsIn_start blob).afterAll before
  -- of the reads before, no more matters from here on than that they have left a position in the blob
  revert hc
  generalize hposition : (start blob).afterAll before = c
  intro hc
  refine
    { readAll_eq := ?readAll_eq
      offset_le := c.offset_le_afterAll [request]
      offset_le_afterAll := (c.read request).next.offset_le_afterAll after
      afterAll_offset_le := ?afterAll_offset_le
      offset_add_remaining := ⟨hc.offset_add_remaining, (hc.read request).offset_add_remaining⟩
      read_eq := ?read_eq
      unexpectedEnd := ?unexpectedEnd
      reservedLead := fun offset lead last h => hc.of_read_eq_reservedLead h
      reservedTag := fun offset coded last h => of_read_eq_reservedTag h }
  case readAll_eq =>
    rw [readAll_append, hposition]
    rfl
  case afterAll_offset_le =>
    have hend := ((hc.read request).afterAll after).offset_add_remaining
    omega
  case read_eq =>
    intro blob' before' hoffset hdrop
    rw [hc.eq_of_drop_eq ((standsIn_start blob').afterAll before') hoffset hdrop]
  case unexpectedEnd =>
    intro offset last h
    obtain ⟨rfl, rfl⟩ := hc.of_read_eq_unexpectedEnd h
    exact ⟨rfl, rfl, fun r hr => eq_failed_of_mem_readAll hr⟩

/-- One byte that begins no integer, an integer that is no handle, and the end in the middle of an integer. -/
example : ((start [0xFF, 0x07, 0x80]).readAll [.compressed, .typeHandle, .compressed, .element]).map (·.outcome) =
    [.error (.reservedLead 0 0xFF), .error (.reservedTag 1 7), .error (.unexpectedEnd 3),
      .error (.unexpectedEnd 3)] := rfl

end Cursor

end StaticStorage
