import StaticStorage.Proofs.Signature.Reading

/-!
# What a read sees

A read goes forward and sees only the bytes that it passes over. So more bytes at the end of the blob make no
difference to it, unless the blob was at an end in the middle of the read; and then the read says so, at the
end of the blob.

* `Read.Local.bind` — reads that see only what they pass over do so one after another.
* `Cursor.localAt_compressed`, `Cursor.localAt_typeHandle` — the reads of a blob are such reads.
-/

namespace StaticStorage

/-! ## Blobs with more bytes at their end -/

namespace Cursor

/-- The same position in a blob with more bytes at its end. -/
def extend (c : Cursor) (more : List UInt8) : Cursor := ⟨c.offset, c.rest ++ more⟩

/-- The end of the blob. -/
def last (c : Cursor) : Cursor := ⟨c.offset + c.rest.length, []⟩

/-- All positions have one end before them. -/
theorem Passes.last_eq {c next : Cursor} {bytes : List UInt8} (h : c.Passes bytes next) :
    next.last = c.last := by
  rw [last, last, h.1, h.2, List.length_append, Nat.add_assoc]

end Cursor

namespace Read

variable {α β : Type}

/-- The blob was at an end in the middle of the read. -/
def RanOut (r : Read α) : Prop := ∃ offset last, r = .failed (.unexpectedEnd offset) last

theorem ranOut_failed_iff {fault : BlobError} {last : Cursor} :
    (failed fault last : Read α).RanOut ↔ ∃ offset, fault = .unexpectedEnd offset := by
  constructor
  · rintro ⟨offset, last', h⟩
    exact ⟨offset, (Read.failed.inj h).1⟩
  · rintro ⟨offset, rfl⟩
    exact ⟨offset, last, rfl⟩

theorem not_ranOut_done {value : α} {next : Cursor} : ¬ (done value next).RanOut := nofun

/-- The same outcome in a blob with more bytes at its end. -/
def extend (r : Read α) (more : List UInt8) : Read α :=
  match r with
  | done value next => done value (next.extend more)
  | failed fault last => failed fault (last.extend more)

/-! ## Reads that see only what they pass over -/

/-- What a read comes to from the cursor on, by itself and with more bytes at the end of the blob. It has seen
only the bytes that it passed over, and the end of the blob if it came to that. -/
structure Local (c : Cursor) (r : Read α) (longer : List UInt8 → Read α) : Prop where
  passes : ∃ bytes, c.Passes bytes r.next
  ranOut : r.RanOut → r = .failed (.unexpectedEnd c.last.offset) c.last
  extend : ¬ r.RanOut → ∀ more, longer more = r.extend more

namespace Local

variable {c : Cursor}

protected theorem done (value : α) : Local c (.done value c) fun more => .done value (c.extend more) :=
  ⟨⟨[], Cursor.passes_nil.2 rfl⟩, nofun, fun _ _ => rfl⟩

/-- A fault of the bytes is found where they are, in however long a blob. -/
protected theorem failed {fault : BlobError} (h : ∀ offset, fault ≠ .unexpectedEnd offset) :
    Local c (.failed fault c : Read α) fun more => .failed fault (c.extend more) := by
  refine ⟨⟨[], Cursor.passes_nil.2 rfl⟩, fun hranOut => ?_, fun _ _ => rfl⟩
  obtain ⟨offset, rfl⟩ := ranOut_failed_iff.1 hranOut
  exact absurd rfl (h offset)

protected theorem ite {p : Prop} [Decidable p] {r r' : Read α} {longer longer' : List UInt8 → Read α}
    (h : p → Local c r longer) (h' : ¬ p → Local c r' longer') :
    Local c (if p then r else r') fun more => if p then longer more else longer' more := by
  by_cases hp : p
  · simpa only [if_pos hp] using h hp
  · simpa only [if_neg hp] using h' hp

/-- One read after another sees what both see. -/
protected theorem bind {r : Read α} {longer : List UInt8 → Read α} {continue_ : α → Cursor → Read β}
    (hread : Local c r longer)
    (hmore : ∀ value mid, r = .done value mid →
      Local mid (continue_ value mid) fun more => continue_ value (mid.extend more)) :
    Local c (r.bind continue_) fun more => (longer more).bind continue_ := by
  obtain ⟨⟨bytes, hpasses⟩, hranOut, hextend⟩ := hread
  cases r with
  | failed fault last =>
    have hsame : (failed fault last : Read β).RanOut ↔ (failed fault last : Read α).RanOut :=
      ranOut_failed_iff.trans ranOut_failed_iff.symm
    refine ⟨⟨bytes, hpasses⟩, fun h => ?_, fun h more => ?_⟩
    · obtain ⟨rfl, rfl⟩ := Read.failed.inj (hranOut (hsame.1 h))
      rfl
    · rw [hextend (mt hsame.2 h)]
      rfl
  | done value mid =>
    obtain ⟨⟨bytes', hpasses'⟩, hranOut', hextend'⟩ := hmore value mid rfl
    have hlast : mid.last = c.last := hpasses.last_eq
    refine ⟨⟨bytes ++ bytes', Cursor.passes_append.2 ⟨mid, hpasses, hpasses'⟩⟩, fun h => ?_, fun h more => ?_⟩
    · rw [← hlast]
      exact hranOut' h
    · rw [hextend not_ranOut_done]
      exact hextend' h more

protected theorem map {r : Read α} {longer : List UInt8 → Read α} (hread : Local c r longer) (f : α → β) :
    Local c (r.map f) fun more => (longer more).map f :=
  hread.bind fun _ _ _ => .done _

end Local

end Read

/-! ## The reads of a blob -/

namespace Cursor

/-- At the cursor, the read sees only what it passes over. -/
abbrev LocalAt {α : Type} (read : Cursor → Read α) (c : Cursor) : Prop :=
  (read c).Local c fun more => read (c.extend more)

theorem localAt_byte (c : Cursor) : LocalAt byte c := by
  obtain ⟨offset, rest⟩ := c
  cases rest with
  | nil => exact ⟨⟨[], passes_nil.2 rfl⟩, fun _ => rfl, fun h => absurd ⟨offset, _, rfl⟩ h⟩
  | cons b rest => exact ⟨⟨[b], rfl, rfl⟩, nofun, fun _ _ => rfl⟩

theorem localAt_element (c : Cursor) : LocalAt element c := (localAt_byte c).map Element.mk

theorem localAt_compressed (c : Cursor) : LocalAt compressed c := by
  unfold compressed
  refine (localAt_byte c).bind fun lead c₁ _ => ?_
  refine .ite (fun _ => .done _) fun _ => .ite (fun _ => ?_) fun _ => .ite (fun _ => ?_) fun _ => ?_
  · exact (localAt_byte c₁).bind fun _ _ _ => .done _
  · refine (localAt_byte c₁).bind fun _ c₂ _ => ?_
    refine (localAt_byte c₂).bind fun _ c₃ _ => ?_
    exact (localAt_byte c₃).bind fun _ _ _ => .done _
  · exact .failed nofun

theorem localAt_typeHandle (c : Cursor) : LocalAt typeHandle c := by
  unfold typeHandle
  refine (localAt_compressed c).bind fun word next _ => ?_
  cases TypeHandle.ofCoded? word with
  | some handle => exact .done handle
  | none => exact .failed nofun

end Cursor

end StaticStorage
