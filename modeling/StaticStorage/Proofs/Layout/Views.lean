import StaticStorage.Proofs.Packing.Placements

/-!
# The views of a layout

A layout can be asked for its types, for all of its places, for their number, for the places under a type, and
for the place of a field. No order of the types is promised, so each of these views may walk them in an order
of its own. They agree nevertheless, also in layouts that list a type for nothing or a field twice. Only which
of several places a field is answered with may depend on the order.

In a layout that was computed nothing depends on it: each field has one place, since no row of a field table is
listed twice. Rows past the largest word are all held at it; so the largest row of an overfull table is the one
row that several fields may share.

* `Listing.placements_eq`, `Listing.mem_typeIds`, `Listing.isSome_offsetOf?_iff` — the views, in one order or
  two.
* `Module.listsOnce_build` — a row that is no field's but one is listed once, however large the table.
* `Layout.viewsAgree` — the views agree, and in computed layouts no order matters.
-/

namespace StaticStorage

namespace Layout

namespace Listing

variable {l : Layout} {t : TypeId} {f : QualifiedField} {o : FieldOffset}

/-- The listed types. -/
def typeIds (a : l.Listing) : List TypeId := a.entries.map fun entry => ⟨entry.1⟩

/-- All placed fields with the types that list them. -/
def placements (a : l.Listing) : List (TypeId × FieldOffset) :=
  a.entries.flatMap fun entry => entry.2.map fun o => (⟨entry.1⟩, o)

/-- The number of placed fields. -/
def fieldCount (a : l.Listing) : ℕ := a.entries.foldl (fun count entry => count + entry.2.length) 0

/-! ## Types -/

/-- A layout lists its types in ascending order. -/
theorem typeIds_ascending (l : Layout) : (ascending l).typeIds = l.typeIds := List.map_map.symm

/-- A type that is listed is answered its places. -/
theorem offsetsFor_of_mem (a : l.Listing) {entry : UInt32 × List FieldOffset} (h : entry ∈ a.entries) :
    l.offsetsFor ⟨entry.1⟩ = entry.2 := by
  have hget : l.types.get? entry.1 = some entry.2 := (l.types.get?_eq_some_iff).2 (a.perm.mem_iff.1 h)
  unfold offsetsFor
  dsimp only
  rw [hget]

/-- A layout has statics of the types that it lists. -/
theorem mem_typeIds (a : l.Listing) : t ∈ a.typeIds ↔ l.hasStatics t = true := by
  obtain ⟨row⟩ := t
  have hentry : ⟨row⟩ ∈ a.typeIds ↔ ∃ offsets, (row, offsets) ∈ a.entries := by
    simp [typeIds]
  rw [hentry, hasStatics, WordMap.contains, Option.isSome_iff_exists]
  simp only [l.types.get?_eq_some_iff, a.perm.mem_iff]

/-- No type is listed twice. -/
theorem nodup_typeIds (a : l.Listing) : a.typeIds.Nodup := by
  have hperm : a.typeIds.Perm (ascending l).typeIds := a.perm.map _
  refine hperm.nodup_iff.2 (List.pairwise_map.2 (l.types.ascending.imp fun {e e'} hlt heq => ?_))
  exact UInt32.ne_of_lt hlt (congrArg TypeId.row heq)

/-- A type that is not listed has no places. -/
theorem offsetsFor_eq_nil (a : l.Listing) (h : t ∉ a.typeIds) : l.offsetsFor t = [] := by
  have hnone : l.types.get? t.row = none := by
    rw [a.mem_typeIds, hasStatics, WordMap.contains] at h
    simpa using h
  unfold offsetsFor
  rw [hnone]

/-! ## Places -/

/-- The places are those of the listed types, type by type. -/
theorem placements_eq (a : l.Listing) :
    a.placements = a.typeIds.flatMap fun t => (l.offsetsFor t).map fun o => (t, o) := by
  unfold placements typeIds
  rw [List.flatMap_map]
  refine List.flatMap_congr fun entry hentry => ?_
  rw [a.offsetsFor_of_mem hentry]

/-- Two orders list the same places. -/
theorem placements_perm (a b : l.Listing) : a.placements.Perm b.placements :=
  (a.perm.trans b.perm.symm).flatMap_right _

/-- A place is listed under the types that are answered it. -/
theorem mem_placements (a : l.Listing) : (t, o) ∈ a.placements ↔ o ∈ l.offsetsFor t := by
  have hanswer : (t, o) ∈ l.placements.filter (·.1 = t) ↔ o ∈ l.offsetsFor t := by
    rw [l.filter_placements]
    simp
  rw [← hanswer, List.mem_filter, (a.placements_perm (ascending l)).mem_iff]
  exact (and_iff_left (decide_eq_true rfl)).symm

/-- The places are counted as they are listed, in one order or another. -/
theorem fieldCount_eq_length (a b : l.Listing) : a.fieldCount = b.placements.length := by
  have hcomm : RightCommutative fun (count : ℕ) (entry : UInt32 × List FieldOffset) =>
      count + entry.2.length :=
    ⟨fun count entry entry' => Nat.add_right_comm count entry.2.length entry'.2.length⟩
  have hcount : a.fieldCount = l.fieldCount := a.perm.foldl_eq 0
  rw [hcount, l.fieldCount_eq_length]
  exact ((ascending l).placements_perm b).length_eq

/-! ## Fields -/

/-- A field is answered with one of its places. -/
theorem of_offsetOf?_eq_some (a b : l.Listing) (h : a.offsetOf? f = some o) :
    o.field = f ∧ ∃ t, (t, o) ∈ b.placements := by
  obtain ⟨entry, hentry, hfind⟩ := List.exists_of_findSome?_eq_some h
  have hfield : o.field = f := by simpa using List.find?_some hfind
  have hmem : (⟨entry.1⟩, o) ∈ a.placements :=
    List.mem_flatMap.2 ⟨entry, hentry, List.mem_map.2 ⟨o, List.mem_of_find?_eq_some hfind, rfl⟩⟩
  exact ⟨hfield, ⟨entry.1⟩, (a.placements_perm b).mem_iff.1 hmem⟩

/-- A field is answered when it has a place. -/
theorem isSome_offsetOf?_iff (a b : l.Listing) :
    (a.offsetOf? f).isSome ↔ ∃ p ∈ b.placements, p.2.field = f := by
  constructor
  · intro h
    obtain ⟨o, ho⟩ := Option.isSome_iff_exists.1 h
    obtain ⟨hfield, t, hmem⟩ := a.of_offsetOf?_eq_some b ho
    exact ⟨(t, o), hmem, hfield⟩
  · rintro ⟨p, hp, hfield⟩
    obtain ⟨entry, hentry, hmem⟩ := List.mem_flatMap.1 ((b.placements_perm a).mem_iff.1 hp)
    obtain ⟨o, ho, rfl⟩ := List.mem_map.1 hmem
    exact List.findSome?_isSome_iff.2
      ⟨entry, hentry, List.find?_isSome.2 ⟨o, ho, decide_eq_true hfield⟩⟩

/-- A field without places is answered nothing. -/
theorem offsetOf?_eq_none (a b : l.Listing) (h : ∀ p ∈ b.placements, p.2.field ≠ f) :
    a.offsetOf? f = none := by
  apply Option.eq_none_iff_forall_ne_some.2
  intro o ho
  obtain ⟨hfield, t, hmem⟩ := a.of_offsetOf?_eq_some b ho
  exact h (t, o) hmem hfield

/-- A field with one place at most is answered this place in every order. -/
theorem offsetOf?_eq_some_iff (a : l.Listing) (h : (l.placements.filter (·.2.field = f)).length ≤ 1) :
    a.offsetOf? f = some o ↔ o.field = f ∧ ∃ t, (t, o) ∈ l.placements := by
  refine ⟨a.of_offsetOf?_eq_some (ascending l), ?_⟩
  rintro ⟨hfield, t, hmem⟩
  obtain ⟨o', ho'⟩ := Option.isSome_iff_exists.1
    ((a.isSome_offsetOf?_iff (ascending l)).2 ⟨(t, o), hmem, hfield⟩)
  obtain ⟨hfield', t', hmem'⟩ := a.of_offsetOf?_eq_some (ascending l) ho'
  have hplace : (t, o) ∈ l.placements.filter (·.2.field = f) :=
    List.mem_filter.2 ⟨hmem, decide_eq_true hfield⟩
  have hplace' : (t', o') ∈ l.placements.filter (·.2.field = f) :=
    List.mem_filter.2 ⟨hmem', decide_eq_true hfield'⟩
  obtain ⟨p, hp⟩ := List.length_eq_one_iff.1 (Nat.le_antisymm h (List.length_pos_of_mem hplace))
  rw [hp, List.mem_singleton] at hplace hplace'
  obtain ⟨-, rfl⟩ := Prod.mk.inj (hplace.trans hplace'.symm)
  exact ho'

end Listing

/-- The views of a layout agree, each in an order of its own. -/
structure ViewsAgree (l : Layout) : Prop where
  /-- The layout's own views are those in ascending order. -/
  ascending : (Listing.ascending l).typeIds = l.typeIds ∧
    (Listing.ascending l).placements = l.placements ∧
    (Listing.ascending l).fieldCount = l.fieldCount
  /-- A field is searched for in the order that is named. -/
  offsetOf?_eq : ∀ (a : l.Listing) (f : QualifiedField), l.offsetOf? f a = a.offsetOf? f
  nodup_typeIds : ∀ a : l.Listing, a.typeIds.Nodup
  placements_perm : ∀ a b : l.Listing,
    a.placements.Perm (b.typeIds.flatMap fun t => (l.offsetsFor t).map fun o => (t, o))
  fieldCount_eq : ∀ a b : l.Listing, a.fieldCount = b.placements.length
  offsetsFor_eq_nil : ∀ (a : l.Listing) (t : TypeId), t ∉ a.typeIds → l.offsetsFor t = []
  hasStatics_iff : ∀ (a : l.Listing) (t : TypeId), l.hasStatics t = true ↔ t ∈ a.typeIds
  isSome_offsetOf?_iff : ∀ (a b : l.Listing) (f : QualifiedField),
    (a.offsetOf? f).isSome ↔ ∃ p ∈ b.placements, p.2.field = f
  of_offsetOf?_eq_some : ∀ (a b : l.Listing) (f : QualifiedField) (o : FieldOffset),
    a.offsetOf? f = some o → o.field = f ∧ ∃ t, (t, o) ∈ b.placements

end Layout

/-! ## Rows that are listed once -/

namespace Module

variable {m : Module} {f : FieldId}

/-- The row is that of one field at most. Only the largest row of an overfull table is not. -/
def Separates (m : Module) (f : FieldId) : Prop := m.fields.size < UInt32.size ∨ f.row ≠ Word.largest

/-- At most one type lists the field, and it lists the field in one place. -/
structure ListsOnce (m : Module) (f : FieldId) : Prop where
  row_le_size : ∀ {t}, f ∈ m.fieldsOf t → f.row.toNat ≤ m.fields.size
  count_le_one : ∀ t, (m.fieldsOf t).count f ≤ 1
  owner_unique : ∀ {t t'}, f ∈ m.fieldsOf t → f ∈ m.fieldsOf t' → t = t'

/-- Before a declaration the rows are separated as they are afterwards. -/
theorem Separates.of_declare {d : Declaration} (h : (m.declare d).Separates f) : m.Separates f :=
  h.imp_left (Nat.lt_of_le_of_lt (m.size_fields_le_declare d))

/-- A row that a new field has for itself is the one behind the end of the table. -/
theorem Separates.toNat_eq (h : m.Separates f) {n : ℕ} (hsize : m.fields.size = n + 1)
    (hrow : f = ⟨Word.clamp (n + 1)⟩) : f.row.toNat = n + 1 := by
  subst hrow
  rw [Word.toNat_clamp]
  rcases h with hfits | hlargest
  · omega
  · have hword : n + 1 < UInt32.size := by
      by_contra hexceeds
      exact hlargest (if_neg hexceeds)
    omega

/-- What lists a row as often as before still lists it once. -/
theorem ListsOnce.of_count_eq {m' : Module} (h : m.ListsOnce f) (hsize : m.fields.size ≤ m'.fields.size)
    (hcount : ∀ t, (m'.fieldsOf t).count f = (m.fieldsOf t).count f) : m'.ListsOnce f := by
  have hmem : ∀ {t}, f ∈ m'.fieldsOf t → f ∈ m.fieldsOf t := by
    intro t hmem
    rwa [← List.count_pos_iff, hcount, List.count_pos_iff] at hmem
  refine ⟨fun ht => (h.row_le_size (hmem ht)).trans hsize, fun t => ?_,
    fun ht ht' => h.owner_unique (hmem ht) (hmem ht')⟩
  rw [hcount]
  exact h.count_le_one t

/-- One declaration does not list a row again. -/
theorem ListsOnce.declare (h : m.ListsOnce f) {d : Declaration} (hf : (m.declare d).Separates f) :
    (m.declare d).ListsOnce f := by
  rcases m.fieldsOf_declare d with ⟨-, hlists⟩ | ⟨owner, hgrown, hlists⟩
  · exact h.of_count_eq (m.size_fields_le_declare d) fun t => by rw [hlists]
  · by_cases hnew : f = ⟨Word.clamp (m.fields.size + 1)⟩
    · -- the new row lies behind the end of the table, and was not listed before
      have hrow := hf.toNat_eq hgrown hnew
      have hold : ∀ t, f ∉ m.fieldsOf t := fun t hmem => by
        have hle := h.row_le_size hmem
        omega
      have howner : ∀ {t}, f ∈ (m.declare d).fieldsOf t → t = owner := by
        intro t hmem
        by_contra hne
        rw [hlists, if_neg hne] at hmem
        exact hold t hmem
      refine ⟨fun _ => by omega, fun t => ?_, fun ht ht' => (howner ht).trans (howner ht').symm⟩
      rw [hlists]
      split
      · rw [List.count_append, List.count_eq_zero_of_not_mem (hold t), Nat.zero_add]
        exact List.count_le_length
      · rw [List.count_eq_zero_of_not_mem (hold t)]
        exact Nat.zero_le 1
    · refine h.of_count_eq (m.size_fields_le_declare d) fun t => ?_
      have hother : f ∉ [⟨Word.clamp (m.fields.size + 1)⟩] := List.mem_singleton.not.2 hnew
      rw [hlists]
      split
      · rw [List.count_append, List.count_eq_zero_of_not_mem hother, Nat.add_zero]
      · rfl

/-- However a module was built, rows that are separated are listed once. -/
theorem listsOnce_build {id : ModuleId} {pointerSize : UInt32} {history : List Declaration}
    (hf : (build id pointerSize history).Separates f) : (build id pointerSize history).ListsOnce f := by
  induction history using List.reverseRecOn with
  | nil =>
    have hnone : ∀ {t}, f ∉ (build id pointerSize []).fieldsOf t := fun {t} hmem => by
      rw [fieldsOf_build_nil] at hmem
      exact absurd hmem List.not_mem_nil
    exact ⟨fun hmem => absurd hmem hnone, fun t => (List.count_eq_zero_of_not_mem hnone).trans_le (Nat.zero_le 1),
      fun hmem => absurd hmem hnone⟩
  | append_singleton history d ih =>
    rw [build_concat] at hf ⊢
    exact (ih hf.of_declare).declare hf

end Module

/-! ## Computed layouts -/

/-- The layout has a place for each field at most once, and so the views of it depend on no order. -/
structure Layout.PlacesOnce (l : Layout) (m : Module) : Prop where
  /-- No type is listed for nothing. -/
  offsetsFor_ne_nil : ∀ (a : l.Listing), ∀ t ∈ a.typeIds, l.offsetsFor t ≠ []
  /-- No field has two places. -/
  length_filter_le_one : ∀ (a : l.Listing) (f : FieldId), m.Separates f →
    (a.placements.filter (·.2.field = m.qualify f)).length ≤ 1
  /-- In every order a field is found in the same place. -/
  offsetOf?_eq : ∀ (a : l.Listing) (f : FieldId), m.Separates f →
    a.offsetOf? (m.qualify f) = l.offsetOf? (m.qualify f)
  /-- It is the place that the owner of the field has for it. -/
  offsetOf?_eq_some_iff : ∀ (a : l.Listing) (t : TypeId) (f : FieldId) (o : FieldOffset),
    m.Separates f → f ∈ m.fieldsOf t →
      (a.offsetOf? (m.qualify f) = some o ↔ o ∈ l.offsetsFor t ∧ o.field = m.qualify f)
  /-- Fields of other modules are not found. -/
  offsetOf?_eq_none : ∀ (a : l.Listing) (g : QualifiedField), g.home ≠ m.id → a.offsetOf? g = none

namespace Module

open Layout (Listing)

variable {m : Module} {f : FieldId} {options : LayoutOptions} {l : Layout} {t : TypeId} {o : FieldOffset}

/-- A type under which the field is placed lists the field. -/
theorem mem_fieldsOf_of_mem_placements (h : m.layout options = .ok l) (ho : (t, o) ∈ l.placements)
    (hfield : o.field = m.qualify f) : f ∈ m.fieldsOf t := by
  obtain ⟨g, hg, hqualified⟩ := exists_eligible_of_mem_placements h ho
  obtain rfl : g = f := qualify_inj.1 (hqualified.symm.trans hfield)
  exact hg.mem

/-- The places under a type follow the list of its fields. -/
theorem sublist_map_offsetsFor (h : m.layout options = .ok l) (t : TypeId) :
    ((l.offsetsFor t).map (·.field)).Sublist ((m.fieldsOf t).map m.qualify) := by
  rw [map_offsetsFor h]
  split
  · exact List.nil_sublist _
  · exact List.filter_sublist.map m.qualify

/-- Under one type a field has no more places than the type lists it. -/
theorem length_filter_offsetsFor_le (h : m.layout options = .ok l) (t : TypeId) (f : FieldId) :
    ((l.offsetsFor t).filter (·.field = m.qualify f)).length ≤ (m.fieldsOf t).count f := by
  calc ((l.offsetsFor t).filter (·.field = m.qualify f)).length
      = ((l.offsetsFor t).map (·.field)).countP (· = m.qualify f) := by
        rw [List.countP_map, List.countP_eq_length_filter]
        rfl
    _ ≤ ((m.fieldsOf t).map m.qualify).countP (· = m.qualify f) :=
        (sublist_map_offsetsFor h t).countP_le
    _ = (m.fieldsOf t).count f := by
        rw [List.countP_map, List.count]
        refine List.countP_congr fun g _ => ?_
        simp [qualify_inj]

/-- A field that is listed once has one place at most. -/
theorem ListsOnce.length_filter_placements_le (hf : m.ListsOnce f) (h : m.layout options = .ok l) :
    (l.placements.filter (·.2.field = m.qualify f)).length ≤ 1 := by
  cases hplaces : l.placements.filter (·.2.field = m.qualify f) with
  | nil => exact Nat.zero_le 1
  | cons p rest =>
    have hp : p ∈ l.placements.filter (·.2.field = m.qualify f) := hplaces ▸ List.mem_cons_self
    obtain ⟨hp, hfield⟩ := List.mem_filter.1 hp
    have howner := mem_fieldsOf_of_mem_placements h hp (of_decide_eq_true hfield)
    -- all places of the field lie under one type
    have htypes : l.placements.filter (·.2.field = m.qualify f) =
        (l.placements.filter (·.1 = p.1)).filter (·.2.field = m.qualify f) := by
      rw [List.filter_filter]
      refine List.filter_congr fun p' hp' => ?_
      by_cases hfield' : p'.2.field = m.qualify f
      · have howner' := mem_fieldsOf_of_mem_placements h hp' hfield'
        simp [hfield', hf.owner_unique howner' howner]
      · simp [hfield']
    rw [← hplaces, htypes, l.filter_placements, List.filter_map, List.length_map]
    exact (length_filter_offsetsFor_le h p.1 f).trans (hf.count_le_one p.1)

/-- A field that is listed once is found where its owner has a place for it. -/
theorem ListsOnce.offsetOf?_eq_some_iff (hf : m.ListsOnce f) (h : m.layout options = .ok l) (a : l.Listing)
    (ht : f ∈ m.fieldsOf t) :
    a.offsetOf? (m.qualify f) = some o ↔ o ∈ l.offsetsFor t ∧ o.field = m.qualify f := by
  rw [a.offsetOf?_eq_some_iff (hf.length_filter_placements_le h), and_comm]
  refine and_congr_left fun hfield => ?_
  rw [← (Listing.ascending l).mem_placements]
  constructor
  · rintro ⟨t', ho⟩
    obtain rfl := hf.owner_unique ht (mem_fieldsOf_of_mem_placements h ho hfield)
    exact ho
  · exact fun ho => ⟨t, ho⟩

/-- The layout of a module that was built by declarations has a place for each field at most once. -/
theorem placesOnce_of_layout_build {id : ModuleId} {pointerSize : UInt32} {history : List Declaration}
    (h : (build id pointerSize history).layout options = .ok l) :
    l.PlacesOnce (build id pointerSize history) := by
  refine ⟨fun a t ht => ?offsetsFor_ne_nil, fun a f hf => ?length_filter_le_one, fun a f hf => ?offsetOf?_eq,
    fun a t f o hf => (listsOnce_build hf).offsetOf?_eq_some_iff h a,
    fun a g hg => ?offsetOf?_eq_none⟩
  case offsetsFor_ne_nil =>
    obtain ⟨o, ho⟩ := (hasStatics_eq_true_iff h t).1 (a.mem_typeIds.1 ht)
    exact List.ne_nil_of_mem (a.mem_placements.1 (((Listing.ascending l).placements_perm a).mem_iff.1 ho))
  case length_filter_le_one =>
    rw [((a.placements_perm (Listing.ascending l)).filter _).length_eq]
    exact (listsOnce_build hf).length_filter_placements_le h
  case offsetOf?_eq =>
    have honce := (listsOnce_build hf).length_filter_placements_le h
    ext o
    exact (a.offsetOf?_eq_some_iff honce).trans (l.tabled.offsetOf?_eq_some_iff honce).symm
  case offsetOf?_eq_none =>
    refine a.offsetOf?_eq_none (Listing.ascending l) fun p hp hfield => hg ?_
    obtain ⟨f, -, hqualified⟩ := exists_eligible_of_mem_placements h hp
    rw [← hfield, hqualified]
    rfl

end Module

namespace Layout

/-- The views of a layout agree, whatever the order of its types. In the layout of a module each field has one
place at most, which is found in every order; the largest row of an overfull table is left out. -/
theorem viewsAgree (l : Layout) :
    l.ViewsAgree ∧
      ∀ (id : ModuleId) (pointerSize : UInt32) (history : List Declaration) (options : LayoutOptions),
        (Module.build id pointerSize history).layout options = .ok l →
          l.PlacesOnce (Module.build id pointerSize history) := by
  refine ⟨⟨⟨Listing.typeIds_ascending l, rfl, rfl⟩, fun a f => rfl, Listing.nodup_typeIds,
    fun a b => ?placements_perm, Listing.fieldCount_eq_length, fun a t => a.offsetsFor_eq_nil,
    fun a t => a.mem_typeIds.symm, fun a b f => a.isSome_offsetOf?_iff b,
    fun a b f o => a.of_offsetOf?_eq_some b⟩, fun id pointerSize history options => ?placesOnce⟩
  case placements_perm =>
    rw [← b.placements_eq]
    exact a.placements_perm b
  case placesOnce =>
    exact Module.placesOnce_of_layout_build

theorem viewsAgree_sparseLayout :
    sparseModule.layout ⟨8⟩ = .ok sparseLayout ∧ (∀ f, sparseModule.Separates f) ∧
      sparseLayout.ViewsAgree ∧ sparseLayout.PlacesOnce sparseModule := by
  obtain ⟨hviews, honce⟩ := viewsAgree sparseLayout
  exact ⟨layout_sparseModule, fun f => .inl (by decide), hviews, honce _ _ _ _ layout_sparseModule⟩

end Layout

end StaticStorage
