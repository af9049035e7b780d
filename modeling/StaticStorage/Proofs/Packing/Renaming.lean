import StaticStorage.Proofs.Packing.Walk

/-!
# Layouts under other names for the fields

Storage does not care for the row of a field, only for what the field demands. So when the statics of one
module are those of another one under other names, and demand the same, they are placed alike or fail alike,
and the outcome is that of the other module under these names.

* `WordMap.collect_map` — values are collected alike, whatever they are changed to.
* `place_rename`, `placeStatics_rename` — one field, and then all of them, are placed alike.
* `layout_rename` — the outcome for fields under other names.
* `layout_congr` — the outcome when the names are the same.
-/

namespace StaticStorage

/-! ## Renaming fields -/

/-- The place under another name for its field. -/
def FieldOffset.rename (ρ : FieldId → FieldId) (o : FieldOffset) : FieldOffset :=
  { o with field := ⟨o.field.home, ρ o.field.field⟩ }

/-- The error under another name for its field. -/
def LayoutError.rename (ρ : FieldId → FieldId) : LayoutError → LayoutError
  | field f defect => field (ρ f) defect
  | unsupportedTarget pointerSize largestPrimitive => unsupportedTarget pointerSize largestPrimitive
  | overflow => overflow

namespace WordMap

variable {α β : Type}

/-- The map with every value changed. -/
def map (change : α → β) (m : WordMap α) : WordMap β where
  entries := m.entries.map fun entry => (entry.1, change entry.2)
  ascending := List.pairwise_map.2 m.ascending

/-- A changed map answers with the changed values. -/
theorem get?_map (change : α → β) (m : WordMap α) (key : UInt32) :
    (m.map change).get? key = (m.get? key).map change := by
  obtain ⟨entries, ascending⟩ := m
  show (entries.map fun entry => (entry.1, change entry.2)).lookup key = (entries.lookup key).map change
  clear ascending
  induction entries with
  | nil => rfl
  | cons entry rest ih =>
    obtain ⟨k, value⟩ := entry
    rw [List.map_cons, lookup_cons_eq_ite, lookup_cons_eq_ite]
    by_cases h : key = k
    · rw [if_pos h, if_pos h, Option.map_some]
    · rw [if_neg h, if_neg h]
      exact ih

/-- Values may be changed before they are collected or after. -/
theorem collect_map (change : α → β) (l : List (UInt32 × α)) :
    collect (l.map fun entry => (entry.1, change entry.2)) = (collect l).map (List.map change) := by
  apply ext_get?
  intro key
  have hgiven : (∃ entry ∈ l.map fun entry => (entry.1, change entry.2), entry.1 = key) ↔
      ∃ entry ∈ l, entry.1 = key := by
    simp
  rw [get?_map, get?_collect, get?_collect]
  simp only [hgiven]
  split
  · rw [List.filter_map, List.map_map, Option.map_some, List.map_map]
    rfl
  · rfl

end WordMap

/-- The layout under other names for its fields. -/
def Layout.rename (ρ : FieldId → FieldId) (l : Layout) : Layout :=
  { l with types := l.types.map (List.map (FieldOffset.rename ρ)) }

/-- A type is answered the same places under other names. -/
theorem Layout.offsetsFor_rename (ρ : FieldId → FieldId) (l : Layout) (t : TypeId) :
    (l.rename ρ).offsetsFor t = (l.offsetsFor t).map (FieldOffset.rename ρ) := by
  have hget : (l.rename ρ).types.get? t.row = (l.types.get? t.row).map (List.map (FieldOffset.rename ρ)) :=
    WordMap.get?_map _ _ _
  unfold Layout.offsetsFor
  rw [hget]
  cases l.types.get? t.row <;> rfl

/-- What a computation comes to under other names for the fields. -/
def renameOutcome {α : Type} (ρ : FieldId → FieldId) (change : α → α) (outcome : Except LayoutError α) :
    Except LayoutError α :=
  (outcome.map change).mapError (LayoutError.rename ρ)

/-- Under the names that the fields have already, no error changes. -/
theorem mapError_rename_self {α : Type} (outcome : Except LayoutError α) :
    outcome.mapError (LayoutError.rename fun f => f) = outcome := by
  cases outcome with
  | error e => cases e <;> rfl
  | ok value => rfl

/-- Under the names that the fields have already, no layout changes. -/
theorem Layout.rename_self (l : Layout) : l.rename (fun f => f) = l := by
  obtain ⟨home, blocks, entries, ascending⟩ := l
  have hplaces : List.map (FieldOffset.rename fun f => f) = id := List.map_id_fun
  have hentries : entries.map (fun entry => (entry.1, entry.2.map (FieldOffset.rename fun f => f))) =
      entries := by
    simp only [hplaces, id_eq, Prod.mk.eta, List.map_id']
  simp only [Layout.rename, WordMap.map, hentries]

namespace Module

variable {m m' : Module} {target : Target} {ρ : FieldId → FieldId}

/-! ## Placing renamed fields -/

/-- A field whose signature is decoded to the same, and has the same slot, demands the same. -/
theorem demand_rename {f : FieldId}
    (hdecode : FieldSignature.decode (m'.signatureOf (ρ f)) = FieldSignature.decode (m.signatureOf f))
    (hthread : m'.isThreadStatic (ρ f) = m.isThreadStatic f)
    (hslot : ∀ s, m'.slotFor target s = m.slotFor target s) :
    m'.demand target (ρ f) = (m.demand target f).mapError (LayoutError.rename ρ) := by
  unfold demand classify
  rw [hdecode, hthread]
  cases FieldSignature.decode (m.signatureOf f) with
  | error fault => rfl
  | ok s =>
    change (Except.mapError _ (m'.slotFor target s) >>= _) =
      (Except.mapError _ (m.slotFor target s) >>= _).mapError (LayoutError.rename ρ)
    rw [hslot]
    cases m.slotFor target s <;> rfl

/-- A field that demands the same is placed alike. -/
theorem place_rename (hid : m'.id = m.id) {f : FieldId}
    (hdemand : m'.demand target (ρ f) = (m.demand target f).mapError (LayoutError.rename ρ)) (sizes : BlockSizes) :
    m'.place target (ρ f) sizes =
      renameOutcome ρ (fun r => (r.1.rename ρ, r.2)) (m.place target f sizes) := by
  unfold place qualify
  rw [hdemand, hid]
  cases m.demand target f with
  | error e => rfl
  | ok demand =>
    change (LayoutError.orOverflow (sizes.place? demand)).bind _ =
      renameOutcome ρ _ ((LayoutError.orOverflow (sizes.place? demand)).bind _)
    cases sizes.place? demand <;> rfl

/-- Fields that demand the same are placed alike, or the first of them that has no place is the same. -/
theorem placeStatics_rename (hid : m'.id = m.id) {fields : List (TypeId × FieldId)}
    (hdemand : ∀ p ∈ fields, m'.demand target (ρ p.2) = (m.demand target p.2).mapError (LayoutError.rename ρ))
    (sizes : BlockSizes) :
    m'.placeStatics target (fields.map fun p => (p.1, ρ p.2)) sizes =
      renameOutcome ρ (fun r => (r.1.map fun p => (p.1, p.2.rename ρ), r.2))
        (m.placeStatics target fields sizes) := by
  induction fields generalizing sizes with
  | nil => rfl
  | cons p fields ih =>
    obtain ⟨t, f⟩ := p
    have hfirst := place_rename hid (hdemand (t, f) List.mem_cons_self) sizes
    have hrest := ih fun p hp => hdemand p (List.mem_cons_of_mem _ hp)
    rw [List.map_cons, placeStatics_cons, placeStatics_cons, hfirst]
    cases m.place target f sizes with
    | error e => rfl
    | ok r =>
      change (m'.placeStatics target _ r.2).bind _ =
        renameOutcome ρ _ ((m.placeStatics target fields r.2).bind _)
      rw [hrest]
      cases m.placeStatics target fields r.2 <;> rfl

/-- A module has the outcome of another one, renamed, if its statics are those of the other one, renamed, and
demand the same. -/
theorem layout_rename (ρ : FieldId → FieldId) (hid : m'.id = m.id)
    (hpointer : m'.pointerSize = m.pointerSize) (hcount : m'.typeCount = m.typeCount)
    (hstatics : m'.statics = m.statics.map fun p => (p.1, ρ p.2))
    (hdemand : ∀ target, ∀ p ∈ m.statics,
      m'.demand target (ρ p.2) = (m.demand target p.2).mapError (LayoutError.rename ρ))
    (options : LayoutOptions) :
    m'.layout options = renameOutcome ρ (Layout.rename ρ) (m.layout options) := by
  have hcheck : Target.check m'.pointerSize options = Target.check m.pointerSize options := by
    rw [hpointer]
  cases htarget : Target.check m.pointerSize options with
  | error e =>
    rw [layout_of_check_eq_error htarget, layout_of_check_eq_error (hcheck.trans htarget)]
    obtain ⟨-, rfl⟩ := Target.check_eq_error_iff.1 htarget
    rfl
  | ok target =>
    have htarget' := hcheck.trans htarget
    have hreserved : target.reserved m'.typeCount = target.reserved m.typeCount := by rw [hcount]
    cases hstart : target.reserved m.typeCount with
    | error e =>
      rw [layout_of_reserved_eq_error htarget hstart,
        layout_of_reserved_eq_error htarget' (hreserved.trans hstart)]
      obtain ⟨-, rfl⟩ := Target.reserved_eq_error_iff.1 hstart
      rfl
    | ok start =>
      rw [layout_of_reserved htarget hstart, layout_of_reserved htarget' (hreserved.trans hstart),
        hstatics, placeStatics_rename hid (hdemand target), hid]
      cases m.placeStatics target m.statics start with
      | error e => rfl
      | ok r =>
        obtain ⟨placed, sizes⟩ := r
        have htypes := WordMap.collect_map (FieldOffset.rename ρ) (placed.map fun p => (p.1.row, p.2))
        rw [List.map_map] at htypes
        show Except.ok _ = Except.ok _
        rw [Except.ok.injEq, Layout.mk.injEq]
        refine ⟨rfl, rfl, ?_⟩
        dsimp only
        rw [List.map_map]
        exact htypes

/-- A layout depends on the fields that the walk visits, and on no other: two modules of one identity, with
one pointer size, as many types and the same statics have the same layout, or none for the same reason, if
each static demands the same. -/
theorem layout_congr (hid : m'.id = m.id) (hpointer : m'.pointerSize = m.pointerSize)
    (hcount : m'.typeCount = m.typeCount) (hstatics : m'.statics = m.statics)
    (hdemand : ∀ target, ∀ p ∈ m.statics, m'.demand target p.2 = m.demand target p.2)
    (options : LayoutOptions) : m'.layout options = m.layout options := by
  have hsame : m'.statics = m.statics.map fun p => (p.1, p.2) := by
    rw [hstatics]
    exact (List.map_id _).symm
  have hlayout := layout_rename (fun f => f) hid hpointer hcount hsame
    (fun target p hp => (hdemand target p hp).trans (mapError_rename_self _).symm) options
  rw [hlayout, renameOutcome, mapError_rename_self]
  cases m.layout options with
  | error e => rfl
  | ok l => exact congrArg Except.ok l.rename_self

end Module

end StaticStorage
