import Mathlib.Data.Nat.Notation
import Mathlib.Logic.Basic
import StaticStorage.Signature.Field

/-!
# The grammar of field signatures

A field signature as it is spelled: a tree for each way in which bytes can make one, with the conditions of
the grammar as parts of the tree. What is not a signature has no tree. The bytes of a tree, set down from
left to right, are the signature.

* `IntegerForm.append_inj`, `TagForm.append_inj`, `TypeForm.append_inj` — an integer, a tag behind its
  prefix and a type end where they end, whatever follows.
* `FieldForm.bytes_inj` — no bytes can be taken for a field signature in two ways.
-/

namespace StaticStorage

/-! ## Forms -/

/-- A compressed integer, in any of its three forms. -/
inductive IntegerForm where
  /-- The byte is the value. -/
  | one (lead : UInt8) (h : lead.toNat < 0x80)
  /-- The value has fourteen bits. -/
  | two (lead b₁ : UInt8) (h : 0x80 ≤ lead.toNat ∧ lead.toNat < 0xC0)
  /-- The value has twenty-nine bits. -/
  | four (lead b₁ b₂ b₃ : UInt8) (h : 0xC0 ≤ lead.toNat ∧ lead.toNat < 0xE0)

namespace IntegerForm

def bytes : IntegerForm → List UInt8
  | one lead _ => [lead]
  | two lead b₁ _ => [lead, b₁]
  | four lead b₁ b₂ b₃ _ => [lead, b₁, b₂, b₃]

/-- The number that is spelled, most significant byte first. -/
def value : IntegerForm → ℕ
  | one lead _ => lead.toNat
  | two lead b₁ _ => (lead.toNat - 0x80) * 0x100 + b₁.toNat
  | four lead b₁ b₂ b₃ _ =>
    (((lead.toNat - 0xC0) * 0x100 + b₁.toNat) * 0x100 + b₂.toNat) * 0x100 + b₃.toNat

/-- The handle that the number stands for, unless its tag is the reserved one. -/
def handle? (form : IntegerForm) : Option TypeHandle :=
  TypeHandle.ofCoded? (UInt32.ofNat form.value)

end IntegerForm

/-- A modifier and the integer that names its type. Nothing is asked of this integer: the reserved tag of
handles may stand in it. -/
@[ext]
structure ModifierForm where
  tag : Element
  isModifier : tag.isModifier = true
  type : IntegerForm

namespace ModifierForm

def bytes (m : ModifierForm) : List UInt8 := m.tag.raw :: m.type.bytes

end ModifierForm

/-- A tag behind its prefix, which is one sentinel at most and then modifiers. -/
structure TagForm where
  sentinel : Bool
  modifiers : List ModifierForm
  tag : Element
  not_modifier : tag.isModifier = false
  /-- A sentinel is a tag only where it cannot belong to the prefix. -/
  not_sentinel : sentinel = false → modifiers = [] → tag ≠ .sentinel

namespace TagForm

/-- The bytes of modifiers and of a tag behind them. -/
def modifiedBytes (modifiers : List ModifierForm) (tag : Element) : List UInt8 :=
  modifiers.flatMap ModifierForm.bytes ++ [tag.raw]

def bytes (form : TagForm) : List UInt8 :=
  (if form.sentinel then [Element.sentinel.raw] else []) ++ modifiedBytes form.modifiers form.tag

end TagForm

/-- The tag that decides the storage: the first one, or behind the generic mark the second one. -/
structure StorageForm where
  first : TagForm
  second : Option TagForm
  second_iff : second.isSome ↔ first.tag = .genericInstance

namespace StorageForm

def tag (form : StorageForm) : Element := (form.second.getD form.first).tag

def bytes (form : StorageForm) : List UInt8 := form.first.bytes ++ form.second.elim [] TagForm.bytes

end StorageForm

/-- A type as far as storage asks for it: a tag, and behind that of a value type a handle. -/
structure TypeForm where
  storage : StorageForm
  handle : Option IntegerForm
  handle_iff : handle.isSome ↔ storage.tag = .valueType
  not_reserved : ∀ integer ∈ handle, integer.value % 4 ≠ 3

namespace TypeForm

def bytes (form : TypeForm) : List UInt8 :=
  form.storage.bytes ++ form.handle.elim [] IntegerForm.bytes

end TypeForm

/-- A field signature: a header, a type, and then any bytes at all. -/
structure FieldForm where
  header : UInt8
  isField : header &&& 0x0F = 0x06
  type : TypeForm
  trailing : List UInt8

namespace FieldForm

def bytes (form : FieldForm) : List UInt8 := form.header :: (form.type.bytes ++ form.trailing)

end FieldForm

/-! ## Integers -/

namespace IntegerForm

/-- The first byte. -/
def lead : IntegerForm → UInt8
  | one lead _ | two lead _ _ | four lead _ _ _ _ => lead

theorem bytes_eq_cons (form : IntegerForm) : ∃ rest, form.bytes = form.lead :: rest := by
  cases form <;> exact ⟨_, rfl⟩

/-- The first byte says how many there are. -/
theorem length_bytes (form : IntegerForm) :
    form.bytes.length =
      if form.lead.toNat < 0x80 then 1 else if form.lead.toNat < 0xC0 then 2 else 4 := by
  cases form with
  | one lead h => exact (if_pos h).symm
  | two lead b₁ h =>
    change 2 = if lead.toNat < 0x80 then 1 else if lead.toNat < 0xC0 then 2 else 4
    rw [if_neg (by omega), if_pos h.2]
  | four lead b₁ b₂ b₃ h =>
    change 4 = if lead.toNat < 0x80 then 1 else if lead.toNat < 0xC0 then 2 else 4
    rw [if_neg (by omega), if_neg (by omega)]

theorem bytes_inj {form form' : IntegerForm} (h : form.bytes = form'.bytes) : form = form' := by
  cases form <;> cases form' <;> simp_all [bytes]

/-- An integer ends where it ends, whatever follows. -/
theorem append_inj {form form' : IntegerForm} {rest rest' : List UInt8}
    (h : form.bytes ++ rest = form'.bytes ++ rest') : form = form' ∧ rest = rest' := by
  have hlead : form.lead = form'.lead := by
    obtain ⟨tail, htail⟩ := form.bytes_eq_cons
    obtain ⟨tail', htail'⟩ := form'.bytes_eq_cons
    rw [htail, htail'] at h
    exact (List.cons.inj h).1
  have hlength : form.bytes.length = form'.bytes.length := by
    rw [length_bytes, length_bytes, hlead]
  obtain ⟨hbytes, hrest⟩ := List.append_inj h hlength
  exact ⟨bytes_inj hbytes, hrest⟩

/-- No form has room for more than twenty-nine bits. -/
theorem value_lt (form : IntegerForm) : form.value < 0x20000000 := by
  cases form with
  | one lead h =>
    rw [value]
    omega
  | two lead b₁ h =>
    have hb₁ := b₁.toNat_lt
    rw [value]
    omega
  | four lead b₁ b₂ b₃ h =>
    have hb₁ := b₁.toNat_lt
    have hb₂ := b₂.toNat_lt
    have hb₃ := b₃.toNat_lt
    rw [value]
    omega

/-- The number fits a word. -/
theorem toNat_ofNat_value (form : IntegerForm) : (UInt32.ofNat form.value).toNat = form.value :=
  UInt32.toNat_ofNat_of_lt' (Nat.lt_trans form.value_lt (by decide))

theorem isSome_handle?_iff {form : IntegerForm} : form.handle?.isSome ↔ form.value % 4 ≠ 3 := by
  rw [handle?, TypeHandle.isSome_ofCoded?_iff, toNat_ofNat_value]

/-- The bytes without the mark that the first one carries. -/
def digits : IntegerForm → List UInt8
  | one lead _ => [lead]
  | two lead b₁ _ => [lead - 0x80, b₁]
  | four lead b₁ b₂ b₃ _ => [lead - 0xC0, b₁, b₂, b₃]

/-- Without the mark, the bytes are the digits of the value. -/
theorem bigEndian_digits (form : IntegerForm) :
    Compressed.bigEndian form.digits = UInt32.ofNat form.value := by
  unfold Compressed.bigEndian
  cases form with
  | one lead h => simp [digits, value]
  | two lead b₁ h =>
    have hmark : (lead - 0x80).toNat = lead.toNat - 0x80 := UInt8.toNat_sub_of_le _ _ h.1
    simp [digits, value, hmark, Nat.mul_comm]
  | four lead b₁ b₂ b₃ h =>
    have hmark : (lead - 0xC0).toNat = lead.toNat - 0xC0 := UInt8.toNat_sub_of_le _ _ h.1
    simp [digits, value, hmark, Nat.mul_comm]

end IntegerForm

/-! ## Tags -/

theorem Element.raw_inj {tag tag' : Element} : tag.raw = tag'.raw ↔ tag = tag' := by
  obtain ⟨raw⟩ := tag
  obtain ⟨raw'⟩ := tag'
  rw [Element.mk.injEq]

namespace TagForm

theorem modifiedBytes_cons (m : ModifierForm) (modifiers : List ModifierForm) (tag : Element) :
    modifiedBytes (m :: modifiers) tag =
      m.tag.raw :: (m.type.bytes ++ modifiedBytes modifiers tag) := by
  unfold modifiedBytes
  rw [List.flatMap_cons, ModifierForm.bytes, List.cons_append, List.cons_append, List.append_assoc]

/-- A tag that is no modifier is not mistaken for one. -/
theorem modifiedBytes_cons_ne {m : ModifierForm} {modifiers : List ModifierForm} {tag tag' : Element}
    (htag : tag.isModifier = false) (rest rest' : List UInt8) :
    tag.raw :: rest ≠ modifiedBytes (m :: modifiers) tag' ++ rest' := by
  rw [modifiedBytes_cons, List.cons_append]
  intro h
  obtain rfl := Element.raw_inj.1 (List.cons.inj h).1
  exact Bool.false_ne_true (htag.symm.trans m.isModifier)

/-- Modifiers end before the tag behind them, whatever follows. -/
theorem modifiedBytes_append_inj {modifiers modifiers' : List ModifierForm} {tag tag' : Element}
    {rest rest' : List UInt8} (htag : tag.isModifier = false) (htag' : tag'.isModifier = false)
    (h : modifiedBytes modifiers tag ++ rest = modifiedBytes modifiers' tag' ++ rest') :
    modifiers = modifiers' ∧ tag = tag' ∧ rest = rest' := by
  induction modifiers generalizing modifiers' with
  | nil =>
    cases modifiers' with
    | nil =>
      obtain ⟨hraw, hrest⟩ := List.cons.inj h
      exact ⟨rfl, Element.raw_inj.1 hraw, hrest⟩
    | cons m' modifiers' => exact absurd h (modifiedBytes_cons_ne htag rest rest')
  | cons m modifiers ih =>
    cases modifiers' with
    | nil => exact absurd h.symm (modifiedBytes_cons_ne htag' rest' rest)
    | cons m' modifiers' =>
      rw [modifiedBytes_cons, modifiedBytes_cons, List.cons_append, List.cons_append,
        List.append_assoc, List.append_assoc] at h
      obtain ⟨hraw, htail⟩ := List.cons.inj h
      obtain ⟨htype, hmore⟩ := IntegerForm.append_inj htail
      obtain rfl : m = m' := ModifierForm.ext (Element.raw_inj.1 hraw) htype
      obtain ⟨rfl, heq, hrest⟩ := ih hmore
      exact ⟨rfl, heq, hrest⟩

theorem bytes_of_sentinel {form : TagForm} (h : form.sentinel = true) :
    form.bytes = Element.sentinel.raw :: modifiedBytes form.modifiers form.tag := by
  rw [bytes, if_pos h, List.cons_append, List.nil_append]

theorem bytes_of_no_sentinel {form : TagForm} (h : form.sentinel = false) :
    form.bytes = modifiedBytes form.modifiers form.tag := by
  rw [bytes, if_neg (by simp [h]), List.nil_append]

/-- Where no sentinel is taken into the prefix, none stands. -/
theorem bytes_ne_sentinel_cons {form : TagForm} (h : form.sentinel = false) (rest rest' : List UInt8) :
    form.bytes ++ rest ≠ Element.sentinel.raw :: rest' := by
  rw [bytes_of_no_sentinel h]
  cases hmodifiers : form.modifiers with
  | nil =>
    intro heq
    exact form.not_sentinel h hmodifiers (Element.raw_inj.1 (List.cons.inj heq).1)
  | cons m modifiers => exact (modifiedBytes_cons_ne rfl rest' rest).symm

/-- A tag ends where it ends, whatever follows. -/
theorem append_inj {form form' : TagForm} {rest rest' : List UInt8}
    (h : form.bytes ++ rest = form'.bytes ++ rest') : form = form' ∧ rest = rest' := by
  have hparts : form.sentinel = form'.sentinel ∧
      modifiedBytes form.modifiers form.tag ++ rest =
        modifiedBytes form'.modifiers form'.tag ++ rest' := by
    cases hs : form.sentinel with
    | true =>
      cases hs' : form'.sentinel with
      | true =>
        rw [bytes_of_sentinel hs, bytes_of_sentinel hs'] at h
        exact ⟨rfl, (List.cons.inj h).2⟩
      | false =>
        rw [bytes_of_sentinel hs] at h
        exact absurd h.symm (bytes_ne_sentinel_cons hs' _ _)
    | false =>
      cases hs' : form'.sentinel with
      | true =>
        rw [bytes_of_sentinel hs'] at h
        exact absurd h (bytes_ne_sentinel_cons hs _ _)
      | false =>
        rw [bytes_of_no_sentinel hs, bytes_of_no_sentinel hs'] at h
        exact ⟨rfl, h⟩
  obtain ⟨sentinel, modifiers, tag, hmodifier, hsentinel⟩ := form
  obtain ⟨sentinel', modifiers', tag', hmodifier', hsentinel'⟩ := form'
  obtain ⟨rfl, htail⟩ := hparts
  obtain ⟨rfl, rfl, hrest⟩ := modifiedBytes_append_inj hmodifier hmodifier' htail
  exact ⟨rfl, hrest⟩

end TagForm

/-! ## Signatures -/

/-- An optional part ends where it ends, if its presence is known. -/
theorem elim_append_inj {Form : Type} {bytes : Form → List UInt8}
    (hinj : ∀ form form' rest rest', bytes form ++ rest = bytes form' ++ rest' →
      form = form' ∧ rest = rest')
    {part part' : Option Form} {rest rest' : List UInt8} (hpresent : part.isSome ↔ part'.isSome)
    (h : part.elim [] bytes ++ rest = part'.elim [] bytes ++ rest') : part = part' ∧ rest = rest' := by
  cases part with
  | none =>
    cases part' with
    | none => exact ⟨rfl, h⟩
    | some form' => exact absurd (hpresent.2 rfl) Bool.false_ne_true
  | some form =>
    cases part' with
    | none => exact absurd (hpresent.1 rfl) Bool.false_ne_true
    | some form' =>
      obtain ⟨rfl, hrest⟩ := hinj _ _ _ _ h
      exact ⟨rfl, hrest⟩

theorem StorageForm.append_inj {form form' : StorageForm} {rest rest' : List UInt8}
    (h : form.bytes ++ rest = form'.bytes ++ rest') : form = form' ∧ rest = rest' := by
  obtain ⟨first, second, hsecond⟩ := form
  obtain ⟨first', second', hsecond'⟩ := form'
  simp only [bytes, List.append_assoc] at h
  obtain ⟨rfl, hbehind⟩ := TagForm.append_inj h
  obtain ⟨rfl, hrest⟩ :=
    elim_append_inj (fun _ _ _ _ => TagForm.append_inj) (hsecond.trans hsecond'.symm) hbehind
  exact ⟨rfl, hrest⟩

theorem TypeForm.append_inj {form form' : TypeForm} {rest rest' : List UInt8}
    (h : form.bytes ++ rest = form'.bytes ++ rest') : form = form' ∧ rest = rest' := by
  obtain ⟨storage, handle, hhandle, hreserved⟩ := form
  obtain ⟨storage', handle', hhandle', hreserved'⟩ := form'
  simp only [bytes, List.append_assoc] at h
  obtain ⟨rfl, hbehind⟩ := StorageForm.append_inj h
  obtain ⟨rfl, hrest⟩ :=
    elim_append_inj (fun _ _ _ _ => IntegerForm.append_inj) (hhandle.trans hhandle'.symm) hbehind
  exact ⟨rfl, hrest⟩

/-- No bytes can be taken for a field signature in two ways. -/
theorem FieldForm.bytes_inj {form form' : FieldForm} (h : form.bytes = form'.bytes) : form = form' := by
  obtain ⟨header, hfield, type, trailing⟩ := form
  obtain ⟨header', hfield', type', trailing'⟩ := form'
  obtain ⟨rfl, hbehind⟩ : header = header' ∧ _ := List.cons.inj h
  obtain ⟨rfl, rfl⟩ := TypeForm.append_inj hbehind
  rfl

end StaticStorage
