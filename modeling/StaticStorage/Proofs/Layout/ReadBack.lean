import Mathlib.Data.List.Basic
import StaticStorage.Layout.Stored

/-!
# Stored layouts are read back

Every layout is read back from its documents, whether it was computed or not. The members that stand for the
types come in the order in which the layout was gone through, and it does not matter which order this was: the
document names each row by its numeral, and no two rows have one numeral. So two layouts that have a document in
common are the same.

The order is not read back. A table that was filled from a document may list the types in another order than the
table that was written, and a field that several types list may then be found in another place. It is the same
place in all orders just for the fields whose first places under all of the types are alike.

* `BlockExtent.ofDocument?_toDocument`, `FieldOffset.ofDocument?_toDocument` — the parts are read back.
* `WordMap.ofList_of_perm` — a map is that of its entries in any order.
* `Layout.Listing.ofDocument?_document` — a layout is read back from each of its documents.
* `Layout.offsetOf?_eq_iff_placedAlike` — for which fields the order of the types does not matter.
* `Layout.survives` — what is the same after a layout was stored and read back.
-/

namespace StaticStorage

/-! ## Lists -/

/-- A list is read back when each of its items is. -/
theorem mapM_map_eq_some {α β : Type} {write : α → β} {read? : β → Option α}
    (h : ∀ value, read? (write value) = some value) (values : List α) :
    (values.map write).mapM read? = some values := by
  induction values with
  | nil => rfl
  | cons value rest ih =>
    rw [List.map_cons, List.mapM_cons, h, ih]
    rfl

namespace WordMap

variable {α : Type}

/-- The map of a list answers as the list does. -/
theorem get?_ofList (l : List (UInt32 × α)) (key : UInt32) : (ofList l).get? key = l.lookup key := by
  induction l with
  | nil => rfl
  | cons entry rest ih =>
    obtain ⟨k, value⟩ := entry
    have hunfold : ofList ((k, value) :: rest) = (ofList rest).insert k value := rfl
    rw [hunfold, get?_insert, ih, lookup_cons_eq_ite]

/-- In a list without two entries for one key, each entry is found. -/
theorem lookup_eq_some_iff_mem {l : List (UInt32 × α)} (h : (l.map (·.1)).Nodup) {key : UInt32}
    {value : α} : l.lookup key = some value ↔ (key, value) ∈ l := by
  induction l with
  | nil => simp
  | cons entry rest ih =>
    obtain ⟨k, v⟩ := entry
    obtain ⟨hfirst, hrest⟩ := List.nodup_cons.1 h
    rw [lookup_cons_eq_ite, List.mem_cons]
    by_cases heq : key = k
    · subst heq
      have habsent : (key, value) ∉ rest := fun hmem => hfirst (List.mem_map.2 ⟨(key, value), hmem, rfl⟩)
      simp [habsent, eq_comm]
    · rw [if_neg heq, ih hrest]
      simp [heq]

/-- A map is that of its entries, in whichever order they are given. -/
theorem ofList_of_perm {m : WordMap α} {l : List (UInt32 × α)} (h : l.Perm m.entries) : ofList l = m := by
  have hnodup : (l.map (·.1)).Nodup := by
    rw [(h.map _).nodup_iff]
    exact List.pairwise_map.2 (m.ascending.imp fun {a b} hlt => UInt32.ne_of_lt hlt)
  apply ext_get?
  intro key
  ext value
  rw [get?_ofList, get?_eq_some_iff, lookup_eq_some_iff_mem hnodup, h.mem_iff]

end WordMap

/-! ## The parts of a layout -/

/-- An extent is read back. -/
theorem BlockExtent.ofDocument?_toDocument (extent : BlockExtent) :
    ofDocument? extent.toDocument = some extent := by
  have hmembers : extent.toDocument.members? ["size", "alignment"] =
      some [.word extent.size, .word extent.alignment] := rfl
  unfold ofDocument?
  rw [hmembers]
  simp only [Option.bind_eq_bind, Option.bind_some, Document.word?_word]
  rfl

/-- A field is read back. -/
theorem QualifiedField.ofDocument?_toDocument (f : QualifiedField) : ofDocument? f.toDocument = some f := by
  have hmembers : f.toDocument.members? ["module", "def"] =
      some [.word f.home.raw, .word f.field.row] := rfl
  unfold ofDocument?
  rw [hmembers]
  simp only [Option.bind_eq_bind, Option.bind_some, Document.word?_word]
  rfl

/-- A place is read back. -/
theorem FieldOffset.ofDocument?_toDocument (o : FieldOffset) : ofDocument? o.toDocument = some o := by
  have hmembers : o.toDocument.members? ["field", "block", "offset"] =
      some [o.field.toDocument, .text o.block.name, .word o.offset] := rfl
  have hblock : ((Document.text o.block.name).name?).bind BlockKind.ofName? = some o.block :=
    BlockKind.ofName?_name o.block
  unfold ofDocument?
  rw [hmembers]
  simp only [Option.bind_eq_bind, Option.bind_some, Document.word?_word,
    QualifiedField.ofDocument?_toDocument, hblock]
  rfl

namespace Layout

/-- The member of a record that stands for a type and the places of its fields. -/
def memberOf (entry : UInt32 × List FieldOffset) : String × Document :=
  (Decimal.write entry.1.toNat, .list (entry.2.map FieldOffset.toDocument))

/-- A type and the places of its fields are read back. -/
theorem typeOfMember?_memberOf (entry : UInt32 × List FieldOffset) :
    typeOfMember? (memberOf entry).1 (memberOf entry).2 = some entry := by
  obtain ⟨row, offsets⟩ := entry
  have hrow : (Decimal.read? (Decimal.write row.toNat)).bind Word.ofNat? = some row := by
    rw [Decimal.read?_write]
    exact Word.ofNat?_toNat row
  have hitems : (Document.list (offsets.map FieldOffset.toDocument)).items? =
      some (offsets.map FieldOffset.toDocument) := rfl
  unfold typeOfMember? memberOf
  dsimp only
  rw [hrow, hitems]
  simp only [Option.bind_eq_bind, Option.bind_some, mapM_map_eq_some FieldOffset.ofDocument?_toDocument]
  rfl

/-! ## Layouts -/

namespace Listing

variable {l : Layout} {f : QualifiedField} {o : FieldOffset}

/-- A layout as a record that lists the types in this order. -/
def document (a : l.Listing) : Document :=
  .record [
    ("module", .word l.home.raw),
    ("blocks", .list (l.blocks.map BlockExtent.toDocument).toList),
    ("type_offsets", .record (a.entries.map memberOf))]

/-- The document of a layout lists the types by ascending rows. -/
theorem document_ascending (l : Layout) : (ascending l).document = l.toDocument := rfl

/-- A layout is read back from each of its documents. -/
theorem ofDocument?_document (a : l.Listing) : ofDocument? a.document = some l := by
  have hmembers : a.document.members? ["module", "blocks", "type_offsets"] =
      some [.word l.home.raw, .list (l.blocks.map BlockExtent.toDocument).toList,
        .record (a.entries.map memberOf)] := rfl
  have hextents : (l.blocks.map BlockExtent.toDocument).toList.mapM BlockExtent.ofDocument? =
      some l.blocks.toList :=
    mapM_map_eq_some BlockExtent.ofDocument?_toDocument l.blocks.toList
  have htypes : (a.entries.map memberOf).mapM (fun member => typeOfMember? member.1 member.2) =
      some a.entries :=
    mapM_map_eq_some typeOfMember?_memberOf a.entries
  unfold ofDocument?
  rw [hmembers]
  simp only [Option.bind_eq_bind, Option.bind_some, Document.word?_word, Document.items?, Document.entries?,
    hextents, htypes, BlockTable.ofList?_toList, WordMap.ofList_of_perm a.perm]
  rfl

/-- What is read from a document of a layout is this layout. -/
theorem eq_of_ofDocument?_document {l' : Layout} (a : l.Listing) (h : ofDocument? a.document = some l') :
    l' = l :=
  Option.some.inj (h.symm.trans a.ofDocument?_document)

/-- Whether a field is found depends on no order. -/
theorem isSome_offsetOf?_eq (a b : l.Listing) : (a.offsetOf? f).isSome = (b.offsetOf? f).isSome := by
  unfold offsetOf?
  rw [Bool.eq_iff_iff, List.findSome?_isSome_iff, List.findSome?_isSome_iff]
  simp only [(a.perm.trans b.perm.symm).mem_iff]

end Listing

/-! ## Searching a layout -/

/-- Under one of the types this is the first place of the field. -/
def FirstPlace (l : Layout) (f : QualifiedField) (o : FieldOffset) : Prop :=
  ∃ entry ∈ l.types.entries, entry.2.find? (·.field = f) = some o

/-- All types that list the field have the same first place for it. -/
def PlacedAlike (l : Layout) (f : QualifiedField) : Prop :=
  ∀ o o', l.FirstPlace f o → l.FirstPlace f o' → o = o'

variable {l : Layout} {f : QualifiedField} {o : FieldOffset}

/-- A field is answered with its first place under one of the types, and in some order with that under any. -/
theorem exists_offsetOf?_eq_some_iff : (∃ a : l.Listing, a.offsetOf? f = some o) ↔ l.FirstPlace f o := by
  constructor
  · rintro ⟨a, ha⟩
    obtain ⟨entry, hentry, hfind⟩ := List.exists_of_findSome?_eq_some ha
    exact ⟨entry, a.perm.mem_iff.1 hentry, hfind⟩
  · rintro ⟨entry, hentry, hfind⟩
    -- the order in which this type comes first
    refine ⟨⟨entry :: l.types.entries.erase entry, (List.perm_cons_erase hentry).symm⟩, ?_⟩
    unfold Listing.offsetOf?
    rw [List.findSome?_cons]
    simp only [hfind]

/-- The order of the types does not matter for a field just if all types that list it place it alike. -/
theorem offsetOf?_eq_iff_placedAlike :
    (∀ a b : l.Listing, a.offsetOf? f = b.offsetOf? f) ↔ l.PlacedAlike f := by
  constructor
  · intro heq o o' ho ho'
    obtain ⟨a, ha⟩ := exists_offsetOf?_eq_some_iff.2 ho
    obtain ⟨b, hb⟩ := exists_offsetOf?_eq_some_iff.2 ho'
    exact Option.some.inj (ha.symm.trans ((heq a b).trans hb))
  · intro halike a b
    cases ha : a.offsetOf? f with
    | none =>
      have hb : b.offsetOf? f = none := by simpa [ha] using b.isSome_offsetOf?_eq a (f := f)
      exact hb.symm
    | some o =>
      have hb : (b.offsetOf? f).isSome := by rw [b.isSome_offsetOf?_eq a, ha, Option.isSome_some]
      obtain ⟨o', hb⟩ := Option.isSome_iff_exists.1 hb
      have ho := exists_offsetOf?_eq_some_iff.1 ⟨a, ha⟩
      have ho' := exists_offsetOf?_eq_some_iff.1 ⟨b, hb⟩
      rw [hb, halike o o' ho ho']

/-- What it means that a layout survives being stored: being gone through in some order when it is written, and
in some order after it was read back. -/
structure Survives (l : Layout) : Prop where
  /-- The layout's own document is that in ascending order. -/
  document_ascending : (Listing.ascending l).document = l.toDocument
  /-- It is read back from each of its documents. -/
  ofDocument?_document : ∀ a : l.Listing, ofDocument? a.document = some l
  /-- What is asked of a type has the same answer afterwards, and so has the number of fields. -/
  queries_eq : ∀ (a : l.Listing) (l' : Layout), ofDocument? a.document = some l' →
    (∀ t, l'.offsetsFor t = l.offsetsFor t) ∧ (∀ t, l'.hasStatics t = l.hasStatics t) ∧
      l'.fieldCount = l.fieldCount
  /-- The same fields are found afterwards. -/
  isSome_offsetOf?_eq : ∀ (before : l.Listing) (l' : Layout) (after : l'.Listing) (f : QualifiedField),
    ofDocument? before.document = some l' → (after.offsetOf? f).isSome = (before.offsetOf? f).isSome
  /-- A field is found in the same place, whatever the two orders, if all types that list it place it alike,
  and only then. -/
  offsetOf?_eq_iff : ∀ f : QualifiedField,
    (∀ (before : l.Listing) (l' : Layout) (after : l'.Listing), ofDocument? before.document = some l' →
      after.offsetOf? f = before.offsetOf? f) ↔ l.PlacedAlike f
  /-- In any case a field is answered with its first place under one of the types. -/
  firstPlace : ∀ (before : l.Listing) (l' : Layout) (after : l'.Listing) (f : QualifiedField)
    (o : FieldOffset), ofDocument? before.document = some l' → after.offsetOf? f = some o → l.FirstPlace f o
  /-- No other layout has any of its documents. -/
  eq_of_document_eq : ∀ (a : l.Listing) (l' : Layout) (a' : l'.Listing), a.document = a'.document → l' = l

/-- Every layout survives being stored. -/
theorem survives (l : Layout) : l.Survives := by
  refine ⟨Listing.document_ascending l, Listing.ofDocument?_document, ?queries_eq, ?isSome_offsetOf?_eq,
    fun f => ?offsetOf?_eq_iff, ?firstPlace, ?eq_of_document_eq⟩
  case queries_eq =>
    intro a l' hread
    obtain rfl := a.eq_of_ofDocument?_document hread
    exact ⟨fun t => rfl, fun t => rfl, rfl⟩
  case isSome_offsetOf?_eq =>
    intro before l' after f hread
    obtain rfl := before.eq_of_ofDocument?_document hread
    exact after.isSome_offsetOf?_eq before
  case offsetOf?_eq_iff =>
    rw [← offsetOf?_eq_iff_placedAlike]
    constructor
    · exact fun hsame a b => (hsame b l a b.ofDocument?_document)
    · intro hsame before l' after hread
      obtain rfl := before.eq_of_ofDocument?_document hread
      exact hsame after before
  case firstPlace =>
    intro before l' after f o hread hfound
    obtain rfl := before.eq_of_ofDocument?_document hread
    exact exists_offsetOf?_eq_some_iff.1 ⟨after, hfound⟩
  case eq_of_document_eq =>
    intro a l' a' hsame
    exact Option.some.inj (a'.ofDocument?_document.symm.trans (hsame ▸ a.ofDocument?_document))

/-- A layout that lists one field under two types. -/
def repeatedLayout : Layout where
  home := ⟨3⟩
  blocks := .const ⟨16, 8⟩
  types := ⟨[(1, [⟨⟨⟨3⟩, ⟨1⟩⟩, .gc, 0⟩]), (2, [⟨⟨⟨3⟩, ⟨1⟩⟩, .gc, 8⟩])], by decide⟩

/-- The order of a table into which the second type was entered first. -/
def secondFirst : repeatedLayout.Listing :=
  Listing.entered ⟨[(2, [⟨⟨⟨3⟩, ⟨1⟩⟩, .gc, 8⟩]), (1, [⟨⟨⟨3⟩, ⟨1⟩⟩, .gc, 0⟩])], by decide⟩

/-- The layout is read back from the document that such a table is written as, but the field that it lists twice
is found in one place in the table that was written, and in the other in the table that is read. -/
theorem offsetOf?_entered_secondFirst_ne :
    ofDocument? secondFirst.document = some repeatedLayout ∧
      secondFirst.offsetOf? ⟨⟨3⟩, ⟨1⟩⟩ = some ⟨⟨⟨3⟩, ⟨1⟩⟩, .gc, 0⟩ ∧
      secondFirst.entered.offsetOf? ⟨⟨3⟩, ⟨1⟩⟩ = some ⟨⟨⟨3⟩, ⟨1⟩⟩, .gc, 8⟩ :=
  ⟨secondFirst.ofDocument?_document, by decide, by decide⟩

end Layout

end StaticStorage
