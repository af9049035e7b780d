import StaticStorage.Proofs.Signature.Truncation

/-!
# Prefixes make no difference

A sentinel and modifiers in front of a tag are passed over. What is read behind them is what would be read
without them, and so is what goes wrong behind them, only that it goes wrong so many bytes further on. The
same is true of a prefix behind a generic mark.

* `Read.bind_shift` — reads that do not depend on where the blob begins do not do so one after another.
* `Cursor.fieldType_shift` — a type is read alike from wherever in a blob.
* `Cursor.leadingElement_of_passes` — a prefix is passed over, whatever follows.
* `FieldSignature.decode_prefixed` — a signature with a prefix more is decoded as without it.
-/

namespace StaticStorage

/-! ## Further on in a blob -/

/-- The fault, so many bytes further on in a blob. -/
def BlobError.shift (n : ℕ) : BlobError → BlobError
  | unexpectedEnd offset => unexpectedEnd (offset + n)
  | reservedLead offset lead => reservedLead (offset + n) lead
  | reservedTag offset coded => reservedTag (offset + n) coded
  | tooLarge value => tooLarge value

/-- The fault of a signature, so many bytes further on. The header stays where it is. -/
def SignatureError.shift (n : ℕ) : SignatureError → SignatureError
  | notAField header => notAField header
  | blob fault => blob (fault.shift n)

/-- The same bytes to come, so many bytes further on. -/
def Cursor.shift (c : Cursor) (n : ℕ) : Cursor := ⟨c.offset + n, c.rest⟩

namespace Read

variable {α β : Type} {n : ℕ}

/-- The same outcome, so many bytes further on. -/
def shift (r : Read α) (n : ℕ) : Read α :=
  match r with
  | done value next => done value (next.shift n)
  | failed fault last => failed (fault.shift n) (last.shift n)

/-- One read after another is further on when both are. -/
theorem bind_shift {r r' : Read α} {continue_ continue' : α → Cursor → Read β} (hread : r' = r.shift n)
    (hmore : ∀ value mid, r = .done value mid →
      continue' value (mid.shift n) = (continue_ value mid).shift n) :
    r'.bind continue' = (r.bind continue_).shift n := by
  subst hread
  cases r with
  | done value mid => exact hmore value mid rfl
  | failed fault last => rfl

theorem map_shift {r r' : Read α} (hread : r' = r.shift n) (f : α → β) : r'.map f = (r.map f).shift n :=
  bind_shift hread fun _ _ _ => rfl

theorem mapError_outcome_shift (r : Read α) :
    (r.shift n).outcome.mapError SignatureError.blob =
      (r.outcome.mapError SignatureError.blob).mapError (SignatureError.shift n) := by
  cases r <;> rfl

end Read

namespace Cursor

variable {c mid : Cursor} {n : ℕ}

theorem byte_shift (c : Cursor) (n : ℕ) : (c.shift n).byte = c.byte.shift n := by
  obtain ⟨offset, rest⟩ := c
  cases rest with
  | nil => rfl
  | cons b rest =>
    change Read.done b ⟨offset + n + 1, rest⟩ = .done b ⟨offset + 1 + n, rest⟩
    rw [Nat.add_right_comm]

theorem element_shift (c : Cursor) (n : ℕ) : (c.shift n).element = c.element.shift n :=
  Read.map_shift (c.byte_shift n) Element.mk

theorem compressed_shift (c : Cursor) (n : ℕ) : (c.shift n).compressed = c.compressed.shift n := by
  unfold compressed
  refine Read.bind_shift (c.byte_shift n) fun lead c₁ _ => ?_
  split
  · rfl
  · split
    · exact Read.bind_shift (c₁.byte_shift n) fun _ _ _ => rfl
    · split
      · refine Read.bind_shift (c₁.byte_shift n) fun _ c₂ _ => ?_
        refine Read.bind_shift (c₂.byte_shift n) fun _ c₃ _ => ?_
        exact Read.bind_shift (c₃.byte_shift n) fun _ _ _ => rfl
      · rfl

theorem typeHandle_shift (c : Cursor) (n : ℕ) : (c.shift n).typeHandle = c.typeHandle.shift n := by
  unfold typeHandle
  refine Read.bind_shift (c.compressed_shift n) fun word next _ => ?_
  cases TypeHandle.ofCoded? word <;> rfl

theorem skipModifiers_shift (c : Cursor) (tag : Element) (n : ℕ) :
    (c.shift n).skipModifiers tag = (c.skipModifiers tag).shift n := by
  -- each modifier takes bytes, so that fewer are to come behind it
  induction hlength : c.rest.length using Nat.strongRecOn generalizing c tag with
  | _ length ih =>
    subst hlength
    cases hmodifier : tag.isModifier with
    | true =>
      rw [skipModifiers_of_modifier hmodifier, skipModifiers_of_modifier hmodifier]
      refine Read.bind_shift (c.compressed_shift n) fun word c₁ hword => ?_
      refine Read.bind_shift (c₁.element_shift n) fun tag c₂ htag => ?_
      exact ih _ (Nat.lt_trans (length_lt_of_element htag) (length_lt_of_compressed hword)) c₂ tag rfl
    | false =>
      rw [skipModifiers_of_not_modifier hmodifier, skipModifiers_of_not_modifier hmodifier]
      rfl

theorem leadingElement_shift (c : Cursor) (n : ℕ) :
    (c.shift n).leadingElement = c.leadingElement.shift n := by
  unfold leadingElement
  refine Read.bind_shift (c.element_shift n) fun tag c₁ _ => ?_
  split
  · exact Read.bind_shift (c₁.element_shift n) fun tag c₂ _ => c₂.skipModifiers_shift tag n
  · exact c₁.skipModifiers_shift tag n

theorem storageElement_shift (c : Cursor) (n : ℕ) :
    (c.shift n).storageElement = c.storageElement.shift n := by
  unfold storageElement
  refine Read.bind_shift (c.leadingElement_shift n) fun tag c₁ _ => ?_
  split
  · exact c₁.leadingElement_shift n
  · rfl

/-- A type is read alike when the tag that decides storage is. -/
theorem fieldType_shift {c' : Cursor} (h : c'.storageElement = c.storageElement.shift n) :
    c'.fieldType = c.fieldType.shift n := by
  unfold fieldType
  refine Read.bind_shift h fun tag c₁ _ => ?_
  split
  · exact Read.map_shift (c₁.typeHandle_shift n) _
  · rfl

end Cursor

/-! ## Prefixes -/

/-- What may stand in front of a tag: one sentinel at most, and then modifiers. -/
structure PrefixForm where
  sentinel : Bool
  modifiers : List ModifierForm

namespace PrefixForm

def bytes (p : PrefixForm) : List UInt8 :=
  (if p.sentinel then [Element.sentinel.raw] else []) ++ p.modifiers.flatMap ModifierForm.bytes

end PrefixForm

/-- Bytes that begin with another tag do not begin with a sentinel. -/
theorem Element.head?_raw_cons_ne {tag : Element} (h : tag ≠ .sentinel) (rest : List UInt8) :
    (tag.raw :: rest).head? ≠ some sentinel.raw :=
  fun hhead => h (raw_inj.1 (Option.some.inj hhead))

namespace Cursor

variable {c mid : Cursor}

/-- Read the tag behind modifiers, with no sentinel in front of them. -/
def modifiedElement (c : Cursor) : Read Element := c.element.bind fun tag c₁ => c₁.skipModifiers tag

/-- Modifiers are passed over, whatever follows. -/
theorem modifiedElement_of_passes {modifiers : List ModifierForm}
    (h : c.Passes (modifiers.flatMap ModifierForm.bytes) mid) : c.modifiedElement = mid.modifiedElement := by
  induction modifiers generalizing c with
  | nil => rw [passes_nil.1 h]
  | cons m modifiers ih =>
    obtain ⟨c₂, hfirst, hmore⟩ := passes_append.1 h
    obtain ⟨c₁, htag, htype⟩ := passes_cons.1 hfirst
    rw [← ih hmore, modifiedElement, element_eq_done.2 htag]
    change c₁.skipModifiers m.tag = _
    rw [skipModifiers_of_modifier m.isModifier, compressed_of_passes htype]
    rfl

/-- Where no sentinel comes first, there is none to pass over. -/
theorem leadingElement_of_head?_ne (h : c.rest.head? ≠ some Element.sentinel.raw) :
    c.leadingElement = c.modifiedElement := by
  obtain ⟨offset, rest⟩ := c
  cases rest with
  | nil => rfl
  | cons b rest =>
    have htag : (⟨b⟩ : Element) ≠ .sentinel := by
      rintro ⟨⟩
      exact h rfl
    exact if_neg htag

/-- A prefix is passed over, whatever follows but a sentinel. -/
theorem leadingElement_of_passes {p : PrefixForm} (h : c.Passes p.bytes mid)
    (hrest : mid.rest.head? ≠ some Element.sentinel.raw) : c.leadingElement = mid.leadingElement := by
  obtain ⟨c₁, hsentinel, hmodifiers⟩ := passes_append.1 h
  rw [leadingElement_of_head?_ne hrest, ← modifiedElement_of_passes hmodifiers]
  cases hp : p.sentinel with
  | true =>
    rw [hp, if_pos rfl] at hsentinel
    rw [leadingElement, element_eq_done.2 (byte_eq_done.2 hsentinel), Read.bind, if_pos rfl]
    rfl
  | false =>
    rw [hp, if_neg Bool.false_ne_true, passes_nil] at hsentinel
    subst hsentinel
    apply leadingElement_of_head?_ne
    -- the first byte is that of a modifier, or the one behind the prefix
    rw [hmodifiers.1]
    cases p.modifiers with
    | nil => exact hrest
    | cons m modifiers =>
      refine Element.head?_raw_cons_ne (fun htag => ?_) _
      have hmodifier := m.isModifier
      rw [htag] at hmodifier
      cases hmodifier

/-- A prefix in front of the tag that decides storage is passed over. -/
theorem storageElement_of_passes {p : PrefixForm} (h : c.Passes p.bytes mid)
    (hrest : mid.rest.head? ≠ some Element.sentinel.raw) : c.storageElement = mid.storageElement := by
  rw [storageElement, leadingElement_of_passes h hrest, storageElement]

/-- A generic mark is passed over with its prefix. -/
theorem storageElement_of_passes_genericInstance {q : PrefixForm}
    (h : c.Passes (q.bytes ++ [Element.genericInstance.raw]) mid) :
    c.storageElement = mid.leadingElement := by
  obtain ⟨c₁, hprefix, hmark⟩ := passes_append.1 h
  have hhead : c₁.rest.head? ≠ some Element.sentinel.raw := by
    rw [hmark.1]
    exact Element.head?_raw_cons_ne (by decide) mid.rest
  have hread : c₁.leadingElement = .done .genericInstance mid := by
    rw [leadingElement_of_head?_ne hhead, modifiedElement, element_eq_done.2 (byte_eq_done.2 hmark)]
    exact skipModifiers_of_not_modifier rfl
  rw [storageElement_of_passes hprefix hhead, storageElement, hread, Read.bind, if_pos rfl]

end Cursor

/-! ## Signatures -/

namespace FieldSignature

variable {header : UInt8} {rest rest' : List UInt8} {n : ℕ}

/-- A signature is decoded alike when the tag that decides storage is read alike. -/
theorem decode_shift
    (h : Cursor.storageElement ⟨1, rest'⟩ = (Cursor.storageElement ⟨1, rest⟩).shift n) :
    decode (header :: rest') = (decode (header :: rest)).mapError (SignatureError.shift n) := by
  rw [decode_cons, decode_cons, Cursor.fieldType_shift h]
  split
  · exact Read.mapError_outcome_shift _
  · rfl

/-- A prefix behind the header is passed over. -/
theorem decode_cons_prefixed (p : PrefixForm) (hrest : rest.head? ≠ some Element.sentinel.raw) :
    decode (header :: (p.bytes ++ rest)) =
      (decode (header :: rest)).mapError (SignatureError.shift p.bytes.length) := by
  have hpasses : Cursor.Passes ⟨1, p.bytes ++ rest⟩ p.bytes (Cursor.shift ⟨1, rest⟩ p.bytes.length) :=
    ⟨rfl, rfl⟩
  apply decode_shift
  rw [Cursor.storageElement_of_passes hpasses hrest, Cursor.storageElement_shift]

/-- A prefix behind a generic mark is passed over. -/
theorem decode_cons_genericInstance_prefixed (q p : PrefixForm)
    (hrest : rest.head? ≠ some Element.sentinel.raw) :
    decode (header :: (q.bytes ++ Element.genericInstance.raw :: (p.bytes ++ rest))) =
      (decode (header :: (q.bytes ++ Element.genericInstance.raw :: rest))).mapError
        (SignatureError.shift p.bytes.length) := by
  have hmark (more : List UInt8) :
      Cursor.storageElement ⟨1, q.bytes ++ Element.genericInstance.raw :: more⟩ =
        Cursor.leadingElement ⟨1 + (q.bytes.length + 1), more⟩ := by
    apply Cursor.storageElement_of_passes_genericInstance (q := q)
    exact ⟨by simp, by simp⟩
  have hpasses : Cursor.Passes ⟨1 + (q.bytes.length + 1), p.bytes ++ rest⟩ p.bytes
      (Cursor.shift ⟨1 + (q.bytes.length + 1), rest⟩ p.bytes.length) := ⟨rfl, rfl⟩
  apply decode_shift
  rw [hmark, hmark, Cursor.leadingElement_of_passes hpasses hrest, Cursor.leadingElement_shift]

/-- A prefix behind the header, or behind a generic mark with a prefix of its own, makes no difference to a
signature, but that what is wrong behind it is found so many bytes further on. -/
theorem decode_prefixed (header : UInt8) (p : PrefixForm)
    (hrest : rest.head? ≠ some Element.sentinel.raw) :
    decode (header :: (p.bytes ++ rest)) =
        (decode (header :: rest)).mapError (SignatureError.shift p.bytes.length) ∧
      ∀ q : PrefixForm,
        decode (header :: (q.bytes ++ Element.genericInstance.raw :: (p.bytes ++ rest))) =
          (decode (header :: (q.bytes ++ Element.genericInstance.raw :: rest))).mapError
            (SignatureError.shift p.bytes.length) :=
  ⟨decode_cons_prefixed p hrest, fun q => decode_cons_genericInstance_prefixed q p hrest⟩

/-- A sentinel and two modifiers. The type of the first one has the reserved tag, and that of the second one
takes two bytes. -/
def markedPrefix : PrefixForm where
  sentinel := true
  modifiers := [⟨.requiredModifier, rfl, .one 0x03 (by decide)⟩,
    ⟨.optionalModifier, rfl, .two 0x81 0x08 (by decide)⟩]

/-- A value type whose handle begins with no integer is found six bytes further on. -/
theorem decode_prefixed_markedPrefix :
    [(0x11 : UInt8), 0xFF].head? ≠ some Element.sentinel.raw ∧
      (decode (0x06 :: (markedPrefix.bytes ++ [0x11, 0xFF])) =
          (decode [0x06, 0x11, 0xFF]).mapError (SignatureError.shift 6) ∧
        ∀ q : PrefixForm,
          decode (0x06 :: (q.bytes ++ Element.genericInstance.raw :: (markedPrefix.bytes ++ [0x11, 0xFF]))) =
            (decode (0x06 :: (q.bytes ++ Element.genericInstance.raw :: [0x11, 0xFF]))).mapError
              (SignatureError.shift 6)) :=
  ⟨by decide, decode_prefixed 0x06 markedPrefix (by decide)⟩

end FieldSignature

end StaticStorage
