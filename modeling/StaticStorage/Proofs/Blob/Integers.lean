import StaticStorage.Proofs.Signature.Writing

/-!
# Integers, written and read

A writer has one form for each integer, and a reader takes every form. So what was written is read, integer
after integer, and what was read is written again in as few bytes as any reader would take for it.

* `Compressed.shortest_written` — what is written is the shortest spelling, and the only one of its length.
* `Cursor.rewritten_of_compressed` — an integer that was read is written again, in as many bytes or in fewer.
* `Compressed.streams` — integers that were appended to a buffer are read back one behind the other.
-/

namespace StaticStorage

/-! ## Forms of one integer -/

namespace Compressed

/-- The number of bytes in an integer, as its first byte says. -/
def widthBy (lead : UInt8) : ℕ :=
  if lead.toNat < 0x80 then 1 else if lead.toNat < 0xC0 then 2 else 4

end Compressed

namespace IntegerForm

/-- No form is shorter than the shortest. -/
theorem width_value_le (form : IntegerForm) : Compressed.width form.value ≤ form.bytes.length := by
  unfold Compressed.width
  cases form with
  | one lead h =>
    rw [value, if_pos h]
    exact Nat.le_refl 1
  | two lead b₁ h =>
    have hb₁ := b₁.toNat_lt
    have hvalue : (two lead b₁ h).value < 0x4000 := by
      rw [value]
      omega
    rw [if_pos hvalue]
    split
    · exact Nat.le_succ 1
    · exact Nat.le_refl 2
  | four lead b₁ b₂ b₃ h =>
    change _ ≤ 4
    split
    · decide
    · split <;> decide

/-- A number has one form of each length at most. -/
theorem eq_of_value_eq {form form' : IntegerForm} (hlength : form.bytes.length = form'.bytes.length)
    (hvalue : form.value = form'.value) : form = form' := by
  cases form with
  | one lead h =>
    cases form' with
    | one lead' h' =>
      obtain rfl : lead = lead' := UInt8.toNat_inj.1 hvalue
      rfl
    | two => cases hlength
    | four => cases hlength
  | two lead b₁ h =>
    cases form' with
    | two lead' b₁' h' =>
      have hb₁ := b₁.toNat_lt
      have hb₁' := b₁'.toNat_lt
      simp only [value] at hvalue
      obtain rfl : lead = lead' := UInt8.toNat_inj.1 (by omega)
      obtain rfl : b₁ = b₁' := UInt8.toNat_inj.1 (by omega)
      rfl
    | one => cases hlength
    | four => cases hlength
  | four lead b₁ b₂ b₃ h =>
    cases form' with
    | four lead' b₁' b₂' b₃' h' =>
      have hb₁ := b₁.toNat_lt
      have hb₁' := b₁'.toNat_lt
      have hb₂ := b₂.toNat_lt
      have hb₂' := b₂'.toNat_lt
      have hb₃ := b₃.toNat_lt
      have hb₃' := b₃'.toNat_lt
      simp only [value] at hvalue
      obtain rfl : lead = lead' := UInt8.toNat_inj.1 (by omega)
      obtain rfl : b₁ = b₁' := UInt8.toNat_inj.1 (by omega)
      obtain rfl : b₂ = b₂' := UInt8.toNat_inj.1 (by omega)
      obtain rfl : b₃ = b₃' := UInt8.toNat_inj.1 (by omega)
      rfl
    | one => cases hlength
    | two => cases hlength

end IntegerForm

namespace Compressed

variable {value : UInt32} {buffer bytes : List UInt8}

/-! ## Writing one integer -/

/-- The bytes that a value leaves: those of its shortest form, and none when it is too large. -/
def written (value : UInt32) : List UInt8 :=
  match encode value with
  | .ok bytes => bytes
  | .error _ => []

/-- What is written is a form of the value, and as short as there is one. -/
theorem exists_form_written (h : value ≤ largest) :
    ∃ form : IntegerForm, form.bytes = written value ∧ form.value = value.toNat ∧
      form.bytes.length = width value.toNat := by
  obtain ⟨form, hform, hvalue, hlength⟩ := exists_form_of_le h
  refine ⟨form, ?_, hvalue, hlength⟩
  rw [written, hform]

theorem written_of_lt (h : largest < value) : written value = [] := by rw [written, encode_of_lt h]

theorem append_of_le (h : value ≤ largest) : append buffer value = .ok (buffer ++ written value) := by
  obtain ⟨form, hform, -⟩ := exists_form_of_le h
  rw [append, written, hform]
  rfl

theorem append_of_lt (h : largest < value) : append buffer value = .error (.tooLarge value) := by
  rw [append, encode_of_lt h]
  rfl

/-! ## The shortest spelling -/

/-- A reader takes these bytes, and all of them, for the value. -/
def Spells (bytes : List UInt8) (value : UInt32) : Prop :=
  (Cursor.start bytes).compressed = .done value ⟨bytes.length, []⟩

theorem spells_iff : Spells bytes value ↔ ∃ form : IntegerForm, form.bytes = bytes ∧
    form.value = value.toNat := by
  unfold Spells
  rw [Cursor.compressed_eq_done]
  constructor
  · rintro ⟨form, ⟨hbytes, -⟩, rfl⟩
    exact ⟨form, (hbytes.trans (List.append_nil _)).symm, form.toNat_ofNat_value.symm⟩
  · rintro ⟨form, rfl, hvalue⟩
    refine ⟨form, Cursor.passes_start form.bytes, ?_⟩
    rw [hvalue, UInt32.ofNat_toNat]

/-- No other spelling of the value is as short. -/
structure Shortest (bytes : List UInt8) (value : UInt32) : Prop where
  spells : Spells bytes value
  length_le : ∀ other, Spells other value → bytes.length ≤ other.length
  unique : ∀ other, Spells other value → other.length = bytes.length → other = bytes

theorem shortest_written (h : value ≤ largest) : Shortest (written value) value := by
  obtain ⟨form, hbytes, hvalue, hwidth⟩ := exists_form_written h
  refine ⟨spells_iff.2 ⟨form, hbytes, hvalue⟩, fun other hother => ?_, fun other hother hlength => ?_⟩
  · obtain ⟨form', rfl, hvalue'⟩ := spells_iff.1 hother
    rw [← hbytes, hwidth, ← hvalue']
    exact form'.width_value_le
  · obtain ⟨form', rfl, hvalue'⟩ := spells_iff.1 hother
    rw [← hbytes] at hlength ⊢
    rw [IntegerForm.eq_of_value_eq hlength (hvalue'.trans hvalue.symm)]

/-- What the reading of a value from its bytes says about writing this value. -/
structure Rewritten (value : UInt32) (bytes : List UInt8) : Prop where
  value_le : value ≤ largest
  spells : Spells bytes value
  /-- The first byte has said how many there are. -/
  length_eq : ∃ lead rest, bytes = lead :: rest ∧ bytes.length = widthBy lead
  append_eq : ∀ buffer, append buffer value = .ok (buffer ++ written value)
  length_le : (written value).length ≤ bytes.length
  /-- The bytes are written again as they were, unless in fewer. -/
  eq_iff : written value = bytes ↔ (written value).length = bytes.length
  shortest : Shortest (written value) value

theorem rewritten_bytes (form : IntegerForm) : Rewritten (UInt32.ofNat form.value) form.bytes := by
  have hle : UInt32.ofNat form.value ≤ largest := by
    rw [UInt32.le_iff_toNat_le, form.toNat_ofNat_value]
    exact Nat.le_of_lt_succ form.value_lt
  have hspells : Spells form.bytes (UInt32.ofNat form.value) :=
    spells_iff.2 ⟨form, rfl, form.toNat_ofNat_value.symm⟩
  have hshortest := shortest_written hle
  obtain ⟨rest, hrest⟩ := form.bytes_eq_cons
  exact
    { value_le := hle
      spells := hspells
      length_eq := ⟨form.lead, rest, hrest, form.length_bytes⟩
      append_eq := fun _ => append_of_le hle
      length_le := hshortest.length_le _ hspells
      eq_iff := ⟨congrArg List.length, fun hlength => (hshortest.unique _ hspells hlength.symm).symm⟩
      shortest := hshortest }

end Compressed

namespace Cursor

/-- An integer that was read is written again in as many bytes or in fewer, and in the very bytes that were
read unless in fewer. -/
theorem rewritten_of_compressed {c next : Cursor} {value : UInt32}
    (h : c.compressed = .done value next) :
    ∃ consumed, c.Passes consumed next ∧ Compressed.Rewritten value consumed := by
  obtain ⟨form, hpasses, rfl⟩ := compressed_eq_done.1 h
  exact ⟨form.bytes, hpasses, Compressed.rewritten_bytes form⟩

/-- A number of one byte, spelled in four. -/
theorem rewritten_of_compressed_overlong :
    (⟨2, [0xC0, 0x00, 0x00, 0x2A, 0x06]⟩ : Cursor).compressed = .done 42 ⟨6, [0x06]⟩ ∧
      ∃ consumed, (⟨2, [0xC0, 0x00, 0x00, 0x2A, 0x06]⟩ : Cursor).Passes consumed ⟨6, [0x06]⟩ ∧
        Compressed.Rewritten 42 consumed :=
  ⟨rfl, rewritten_of_compressed rfl⟩

end Cursor

/-! ## Many integers -/

namespace Compressed

variable {buffer : List UInt8} {values : List UInt32}

/-- The fault of appending a value, if there is one. -/
def fault? (value : UInt32) : Option BlobError :=
  if largest < value then some (.tooLarge value) else none

theorem appendEach_cons (value : UInt32) (values : List UInt32) :
    appendEach buffer (value :: values) =
      (fault? value, buffer ++ written value) :: appendEach (buffer ++ written value) values := by
  rw [appendEach, fault?]
  by_cases h : largest < value
  · rw [append_of_lt h, written_of_lt h, if_pos h, List.append_nil]
  · rw [append_of_le (UInt32.not_lt.1 h), if_neg h]

/-- The buffer in the end. -/
def leaves (buffer : List UInt8) (values : List UInt32) : List UInt8 :=
  ((appendEach buffer values).getLast?.map Prod.snd).getD buffer

theorem leaves_eq : leaves buffer values = buffer ++ values.flatMap written := by
  induction values generalizing buffer with
  | nil => simp [leaves, appendEach]
  | cons value values ih =>
    rw [List.flatMap_cons, ← List.append_assoc, ← ih, leaves, appendEach_cons, List.getLast?_cons,
      leaves]
    cases (appendEach (buffer ++ written value) values).getLast? <;> rfl

theorem getElem?_appendEach {i : ℕ} (h : i < values.length) :
    (appendEach buffer values)[i]? = some (fault? values[i], leaves buffer (values.take (i + 1))) := by
  induction values generalizing buffer i with
  | nil => cases h
  | cons value values ih =>
    rw [appendEach_cons]
    cases i with
    | zero => simp [leaves_eq]
    | succ i =>
      rw [List.getElem?_cons_succ, ih (Nat.lt_of_succ_lt_succ h), List.take_succ_cons]
      simp [leaves_eq]

/-- The values that can be written. -/
def accepted (values : List UInt32) : List UInt32 := values.filter (· ≤ largest)

theorem flatMap_written_accepted : (accepted values).flatMap written = values.flatMap written := by
  induction values with
  | nil => rfl
  | cons value values ih =>
    rw [accepted, List.filter_cons, List.flatMap_cons, ← ih]
    by_cases h : value ≤ largest
    · rw [if_pos (decide_eq_true h), List.flatMap_cons]
      rfl
    · rw [if_neg (by simpa using h), written_of_lt (UInt32.not_le.1 h)]
      rfl

end Compressed

namespace Cursor

/-- Integers that come one behind the other are read in order. -/
theorem readAll_compressed {c next : Cursor} {values : List UInt32}
    (hle : ∀ value ∈ values, value ≤ Compressed.largest)
    (h : c.Passes (values.flatMap Compressed.written) next) :
    (c.readAll (List.replicate values.length .compressed)).map Read.outcome =
        values.map (fun value => .ok (.compressed value)) ∧
      c.afterAll (List.replicate values.length .compressed) = next := by
  induction values generalizing c with
  | nil => exact ⟨rfl, (passes_nil.1 h).symm⟩
  | cons value values ih =>
    obtain ⟨hfirst, hmore⟩ := List.forall_mem_cons.1 hle
    obtain ⟨mid, hpasses, hrest⟩ := passes_append.1 h
    obtain ⟨form, hbytes, hvalue, -⟩ := Compressed.exists_form_written hfirst
    rw [← hbytes] at hpasses
    have hread : c.read .compressed = .done (.compressed value) mid := by
      rw [read, compressed_of_passes hpasses, hvalue, UInt32.ofNat_toNat]
      rfl
    obtain ⟨houtcomes, hafter⟩ := ih hmore hrest
    rw [List.length_cons, List.replicate_succ, readAll, afterAll, hread]
    exact ⟨congrArg (_ :: ·) houtcomes, hafter⟩

end Cursor

namespace Compressed

/-- What becomes of values that are appended to a buffer, in order, where some may be rejected. -/
structure Streams (buffer : List UInt8) (values : List UInt32) (appended : List UInt8) : Prop where
  leaves_eq : leaves buffer values = buffer ++ appended
  /-- A value is rejected, and leaves the buffer as it was, just when it is too large. -/
  outcome : ∀ i (h : i < values.length), (appendEach buffer values)[i]? =
    if largest < values[i] then some (some (.tooLarge values[i]), leaves buffer (values.take i))
    else some (none, leaves buffer (values.take (i + 1)))
  /-- The accepted values are read back in order, up to whatever follows them. -/
  readAll_eq : ∀ more, ((Cursor.start (appended ++ more)).readAll
    (List.replicate (accepted values).length .compressed)).map Read.outcome =
      (accepted values).map fun value => .ok (.compressed value)
  afterAll_eq : ∀ more, (Cursor.start (appended ++ more)).afterAll
    (List.replicate (accepted values).length .compressed) = ⟨appended.length, more⟩

/-- Values that are appended to a buffer are read back from the bytes that they left. -/
theorem streams (buffer : List UInt8) (values : List UInt32) :
    ∃ appended, Streams buffer values appended := by
  have hle : ∀ value ∈ accepted values, value ≤ largest := fun value hvalue =>
    of_decide_eq_true (List.mem_filter.1 hvalue).2
  have hpasses (more : List UInt8) : (Cursor.start (values.flatMap written ++ more)).Passes
      ((accepted values).flatMap written) ⟨(values.flatMap written).length, more⟩ := by
    rw [flatMap_written_accepted]
    exact ⟨rfl, (Nat.zero_add _).symm⟩
  refine ⟨values.flatMap written, leaves_eq, fun i h => ?_,
    fun more => (Cursor.readAll_compressed hle (hpasses more)).1,
    fun more => (Cursor.readAll_compressed hle (hpasses more)).2⟩
  rw [getElem?_appendEach h, fault?]
  split
  · next hlarge =>
    rw [leaves_eq, leaves_eq, List.take_succ_eq_append_getElem h, List.flatMap_append,
      List.flatMap_singleton, written_of_lt hlarge, List.append_nil]
  · rfl

example : appendEach [0x06] [0x7F, 0x20000000, 0x4000] =
    [(none, [0x06, 0x7F]), (some (.tooLarge 0x20000000), [0x06, 0x7F]),
      (none, [0x06, 0x7F, 0xC0, 0x00, 0x40, 0x00])] := rfl

end Compressed

end StaticStorage
