import Mathlib.Data.Set.Card
import StaticStorage.Proofs.Module.Rows
import StaticStorage.Proofs.Packing.Walk

/-!
# The fields that a layout places

A layout places the static fields of non-generic types that are no literals, and nothing else. Each of them
is placed once, under the one type that declares it, and in the order of declaration. That no field is
placed under two types is due to the numbering of the field table: no row is listed by two types.

* `filter_placements` — the places under a type are those that the layout answers for it.
* `mem_statics` — the walk visits exactly the eligible fields.
* `Layout.PlacesStatics` — what it means that a layout places each eligible field once.
-/

namespace StaticStorage

/-! ## Listing a layout -/

namespace WordMap

variable {α : Type}

/-- Of the values listed key by key, those under one key are the values of its entry. -/
theorem filter_flatMap_entries (m : WordMap (List α)) (key : UInt32) :
    (m.entries.flatMap fun entry => entry.2.map fun value => (entry.1, value)).filter (·.1 = key) =
      ((m.get? key).getD []).map fun value => (key, value) := by
  obtain ⟨l, ascending⟩ := m
  unfold get?
  dsimp only
  induction l with
  | nil => rfl
  | cons head rest ih =>
    obtain ⟨k, values⟩ := head
    obtain ⟨above, tail⟩ := List.pairwise_cons.1 ascending
    rw [List.flatMap_cons, List.filter_append, ih tail, lookup_cons_eq_ite]
    by_cases hk : key = k
    · subst hk
      rw [if_pos rfl, lookup_eq_none_of_lt above, List.filter_eq_self.2 (by simp)]
      exact List.append_nil _
    · rw [if_neg hk, List.filter_eq_nil_iff.2 (by simp [Ne.symm hk])]
      rfl

end WordMap

namespace Layout

/-- The places under a type are those that the layout answers for the type. -/
theorem filter_placements (l : Layout) (t : TypeId) :
    l.placements.filter (·.1 = t) = (l.offsetsFor t).map fun o => (t, o) := by
  obtain ⟨row⟩ := t
  have hrows := congrArg (List.map fun e : UInt32 × FieldOffset => ((⟨e.1⟩ : TypeId), e.2))
    (l.types.filter_flatMap_entries row)
  have hanswer : l.offsetsFor ⟨row⟩ = (l.types.get? row).getD [] := by
    unfold offsetsFor
    cases l.types.get? row <;> rfl
  have hlist : l.placements = (l.types.entries.flatMap fun entry =>
      entry.2.map fun o => (entry.1, o)).map fun e => (⟨e.1⟩, e.2) := by
    rw [List.map_flatMap]
    simp only [List.map_map]
    rfl
  rw [hlist, List.filter_map, hanswer]
  rw [List.map_map] at hrows
  refine Eq.trans (congrArg _ (List.filter_congr fun e _ => ?_)) hrows
  simp

/-- The fields of a layout are counted as they are listed. -/
theorem fieldCount_eq_length (l : Layout) : l.fieldCount = l.placements.length := by
  have hfold : ∀ (entries : List (UInt32 × List FieldOffset)) (count : ℕ),
      entries.foldl (fun count entry => count + entry.2.length) count =
        count + (entries.flatMap fun entry => entry.2.map fun o => ((⟨entry.1⟩ : TypeId), o)).length := by
    intro entries
    induction entries with
    | nil => exact fun count => rfl
    | cons entry rest ih =>
      intro count
      rw [List.foldl_cons, ih, List.flatMap_cons, List.length_append, List.length_map]
      omega
  exact (hfold l.types.entries 0).trans (Nat.zero_add _)

end Layout

/-! ## Eligible fields -/

namespace Module

variable {m : Module}

/-- The field is a static of the type, and belongs into the layout of the module: the type exists and is
not generic, it lists the field, and the field is static and no literal. -/
structure Eligible (m : Module) (t : TypeId) (f : FieldId) : Prop where
  row_pos : 1 ≤ t.row.toNat
  row_le : t.row ≤ m.typeCount
  not_generic : m.genericParameterCount t = 0
  mem : f ∈ m.fieldsOf t
  static : (m.flagsOf f).contains .static = true
  not_literal : (m.flagsOf f).contains .literal = false

/-- The types of a module are numbered from one to their count. -/
theorem mem_typeIds {t : TypeId} : t ∈ m.typeIds ↔ 1 ≤ t.row.toNat ∧ t.row ≤ m.typeCount := by
  obtain ⟨row⟩ := t
  have hcount := m.typeCount.toNat_lt_size
  have hrow := row.toNat_lt_size
  rw [UInt32.le_iff_toNat_le]
  unfold typeIds
  rw [List.mem_map]
  constructor
  · rintro ⟨i, hi, heq⟩
    obtain rfl := TypeId.mk.inj heq
    have hi := List.mem_range.1 hi
    rw [UInt32.toNat_ofNat_of_lt' (by omega)]
    exact ⟨Nat.le_add_left 1 i, hi⟩
  · rintro ⟨hpos, hle⟩
    dsimp only at hpos hle
    refine ⟨row.toNat - 1, List.mem_range.2 (by omega), congrArg TypeId.mk ?_⟩
    rw [Nat.sub_add_cancel hpos, UInt32.ofNat_toNat]

theorem mem_staticsOf {t : TypeId} {f : FieldId} :
    f ∈ m.staticsOf t ↔ f ∈ m.fieldsOf t ∧ (m.flagsOf f).contains .static = true ∧
      (m.flagsOf f).contains .literal = false := by
  unfold staticsOf FieldFlags.hasStaticStorage
  simp

/-- What the walk visits at a type: its statics, unless it is generic. -/
def visits (m : Module) (t : TypeId) : List (TypeId × FieldId) :=
  if m.isGeneric t then [] else (m.staticsOf t).map fun f => (t, f)

/-- The walk goes from type to type. -/
theorem statics_eq_flatMap (m : Module) : m.statics = m.typeIds.flatMap m.visits := rfl

theorem mem_visits {t t' : TypeId} {f : FieldId} :
    (t', f) ∈ m.visits t ↔ t' = t ∧ m.isGeneric t = false ∧ f ∈ m.staticsOf t := by
  unfold visits
  cases m.isGeneric t with
  | true => simp
  | false => simp [and_comm, eq_comm]

/-- The walk visits exactly the eligible fields. -/
theorem mem_statics {t : TypeId} {f : FieldId} : (t, f) ∈ m.statics ↔ m.Eligible t f := by
  have hvisit : (t, f) ∈ m.statics ↔ t ∈ m.typeIds ∧ m.isGeneric t = false ∧ f ∈ m.staticsOf t := by
    unfold statics
    rw [List.mem_flatMap]
    constructor
    · rintro ⟨t', ht', hmem⟩
      obtain ⟨rfl, hgeneric, hf⟩ := mem_visits.1 hmem
      exact ⟨ht', hgeneric, hf⟩
    · rintro ⟨ht, hgeneric, hf⟩
      exact ⟨t, ht, mem_visits.2 ⟨rfl, hgeneric, hf⟩⟩
  have hgeneric : m.isGeneric t = false ↔ m.genericParameterCount t = 0 := bne_eq_false_iff_eq
  rw [hvisit, mem_typeIds, mem_staticsOf, hgeneric]
  constructor
  · rintro ⟨⟨hpos, hle⟩, hzero, hmem, hstatic, hliteral⟩
    exact ⟨hpos, hle, hzero, hmem, hstatic, hliteral⟩
  · rintro ⟨hpos, hle, hzero, hmem, hstatic, hliteral⟩
    exact ⟨⟨hpos, hle⟩, hzero, hmem, hstatic, hliteral⟩

/-- No field is visited twice, not even under different types. -/
theorem Numbered.nodup_statics (h : m.Numbered) : (m.statics.map (·.2)).Nodup := by
  have hvisits : ∀ {t f}, f ∈ (m.visits t).map (·.2) → f ∈ m.fieldsOf t := by
    intro t f hf
    obtain ⟨⟨t', f'⟩, hmem, rfl⟩ := List.mem_map.1 hf
    exact (mem_staticsOf.1 (mem_visits.1 hmem).2.2).1
  have hstatics : m.statics.map (·.2) = m.typeIds.flatMap fun t => (m.visits t).map (·.2) :=
    List.map_flatMap
  rw [hstatics, List.nodup_flatMap]
  refine ⟨fun t _ => ?_, m.pairwise_typeIds.imp fun {t t'} hlt => ?_⟩
  · -- within a type the rows ascend
    unfold visits
    split
    · exact .nil
    · rw [List.map_map]
      refine List.Pairwise.map _ (fun f g hlt => ?_) ((h.ascending t).filter _)
      exact fun heq => UInt32.ne_of_lt hlt (congrArg FieldId.row heq)
  · -- and no row is listed by two types
    intro f hf hf'
    obtain rfl := h.owner_unique (hvisits hf) (hvisits hf')
    exact UInt32.lt_irrefl _ hlt

/-- A row that is no type of the module lists no fields. -/
theorem staticsOf_eq_nil {t : TypeId} (ht : t ∉ m.typeIds) : m.staticsOf t = [] := by
  have hnone : m.type? t = none := by
    cases hnil : t.isNil with
    | true => simp [type?, hnil]
    | false =>
      apply type?_eq_none_of_size_le
      have hpos := isNil_eq_false_iff.1 hnil
      have hcount : m.typeCount.toNat = min m.types.size (UInt32.size - 1) := Word.toNat_clamp _
      have hrow := t.row.toNat_lt_size
      rw [mem_typeIds, UInt32.le_iff_toNat_le] at ht
      unfold TypeId.index
      omega
  rw [staticsOf, fieldsOf_eq_elim, hnone]
  rfl

/-- The fields visited under one type are the statics of the type, in the order of declaration. -/
theorem filter_statics (m : Module) (t : TypeId) : m.statics.filter (·.1 = t) = m.visits t := by
  have hfilter : ∀ types : List TypeId, types.Nodup →
      (types.flatMap m.visits).filter (·.1 = t) = if t ∈ types then m.visits t else [] := by
    intro types hnodup
    induction types with
    | nil => rfl
    | cons first rest ih =>
      obtain ⟨hfirst, hrest⟩ := List.nodup_cons.1 hnodup
      rw [List.flatMap_cons, List.filter_append, ih hrest]
      by_cases heq : t = first
      · subst heq
        rw [if_neg hfirst, if_pos List.mem_cons_self, List.append_nil, List.filter_eq_self]
        rintro ⟨t', f⟩ hmem
        simpa using (mem_visits.1 hmem).1
      · rw [List.filter_eq_nil_iff.2]
        · simp [heq]
        · rintro ⟨t', f⟩ hmem
          obtain rfl := (mem_visits.1 hmem).1
          simpa using Ne.symm heq
  have hnodup : m.typeIds.Nodup := m.pairwise_typeIds.imp fun {t t'} hlt heq =>
    UInt32.ne_of_lt hlt (congrArg TypeId.row heq)
  rw [statics_eq_flatMap, hfilter m.typeIds hnodup]
  by_cases ht : t ∈ m.typeIds
  · rw [if_pos ht]
  · rw [if_neg ht, visits, staticsOf_eq_nil ht]
    simp

/-! ## The fields of a layout -/

/-- The types that a layout lists are those under which it has placed a field. -/
theorem types_of_layout {options : LayoutOptions} {l : Layout} (h : m.layout options = .ok l) :
    l.types = WordMap.collect (l.placements.map fun p => (p.1.row, p.2)) := by
  obtain ⟨target, start, sizes, htarget, hstart, hwalk, -⟩ := layout_eq_ok h
  rw [layout_of_reserved htarget hstart, hwalk] at h
  exact (congrArg Layout.types (Except.ok.inj h)).symm

/-- No type is listed for nothing. -/
theorem hasStatics_eq_true_iff {options : LayoutOptions} {l : Layout}
    (h : m.layout options = .ok l) (t : TypeId) :
    l.hasStatics t = true ↔ ∃ o, (t, o) ∈ l.placements := by
  have hlisted : l.hasStatics t = true ↔
      ∃ entry ∈ l.placements.map fun p => (p.1.row, p.2), entry.1 = t.row := by
    unfold Layout.hasStatics WordMap.contains
    rw [types_of_layout h, WordMap.get?_collect]
    split
    · next hgiven => exact iff_of_true rfl hgiven
    · next hgiven => exact iff_of_false Bool.false_ne_true hgiven
  rw [hlisted]
  constructor
  · rintro ⟨entry, hentry, hrow⟩
    obtain ⟨⟨t', o⟩, hmem, rfl⟩ := List.mem_map.1 hentry
    obtain rfl : t' = t := congrArg TypeId.mk hrow
    exact ⟨o, hmem⟩
  · rintro ⟨o, hmem⟩
    exact ⟨(t.row, o), List.mem_map.2 ⟨(t, o), hmem, rfl⟩, rfl⟩

/-- A layout lists exactly what its walk visits. -/
theorem map_placements {options : LayoutOptions} {l : Layout} (h : m.layout options = .ok l) :
    l.placements.map (fun p => (p.1, p.2.field)) = m.statics.map fun p => (p.1, m.qualify p.2) := by
  obtain ⟨target, start, sizes, -, -, hwalk, -⟩ := layout_eq_ok h
  exact map_placeStatics hwalk

/-- A type is answered the places of its statics, in the order of declaration. -/
theorem map_offsetsFor {options : LayoutOptions} {l : Layout} (h : m.layout options = .ok l)
    (t : TypeId) :
    (l.offsetsFor t).map (·.field) = if m.isGeneric t then [] else (m.staticsOf t).map m.qualify := by
  have hfilter : ((l.placements.map fun p => (p.1, p.2.field)).filter (·.1 = t)).map (·.2) =
      ((m.statics.map fun p => (p.1, m.qualify p.2)).filter (·.1 = t)).map (·.2) := by
    rw [map_placements h]
  rw [List.filter_map, List.filter_map] at hfilter
  change ((l.placements.filter (·.1 = t)).map _).map _ = ((m.statics.filter (·.1 = t)).map _).map _
    at hfilter
  rw [l.filter_placements, m.filter_statics, List.map_map, List.map_map, List.map_map] at hfilter
  refine hfilter.trans ?_
  unfold visits
  split
  · rfl
  · rw [List.map_map]
    rfl

theorem qualify_inj {f g : FieldId} : m.qualify f = m.qualify g ↔ f = g := by
  unfold qualify
  rw [QualifiedField.mk.injEq]
  exact and_iff_right rfl

/-- A place under a type is that of an eligible field. -/
theorem exists_eligible_of_mem_placements {options : LayoutOptions} {l : Layout}
    (h : m.layout options = .ok l) {t : TypeId} {o : FieldOffset} (ho : (t, o) ∈ l.placements) :
    ∃ f, m.Eligible t f ∧ o.field = m.qualify f := by
  have hfield : (t, o.field) ∈ m.statics.map fun p => (p.1, m.qualify p.2) := by
    rw [← map_placements h]
    exact List.mem_map.2 ⟨(t, o), ho, rfl⟩
  obtain ⟨⟨t', f⟩, hvisited, heq⟩ := List.mem_map.1 hfield
  obtain ⟨rfl, hqualified⟩ := Prod.mk.inj heq
  exact ⟨f, mem_statics.1 hvisited, hqualified.symm⟩

/-- An eligible field has a place under its type. -/
theorem Eligible.mem_placements {options : LayoutOptions} {l : Layout}
    (h : m.layout options = .ok l) {t : TypeId} {f : FieldId} (hf : m.Eligible t f) :
    ∃ o, (t, o) ∈ l.placements ∧ o.field = m.qualify f := by
  have hfield : (t, m.qualify f) ∈ l.placements.map fun p => (p.1, p.2.field) := by
    rw [map_placements h]
    exact List.mem_map.2 ⟨(t, f), mem_statics.2 hf, rfl⟩
  obtain ⟨⟨t', o⟩, hplaced, heq⟩ := List.mem_map.1 hfield
  obtain ⟨rfl, hqualified⟩ := Prod.mk.inj heq
  exact ⟨o, hplaced, hqualified⟩

end Module

/-- A layout places every eligible field just once, under the type that declares it and in the order of
declaration, and no other field. -/
structure Layout.PlacesStatics (l : Layout) (m : Module) : Prop where
  home_eq : ∀ p ∈ l.placements, p.2.field.home = m.id
  mem_iff : ∀ t f, (t, m.qualify f) ∈ l.placements.map (fun p => (p.1, p.2.field)) ↔ m.Eligible t f
  count_eq : ∀ t f, m.Eligible t f →
    (l.placements.map fun p => (p.1, p.2.field)).count (t, m.qualify f) = 1
  nodup : (l.placements.map (·.2.field)).Nodup
  offsetsFor_eq : ∀ t, (l.offsetsFor t).map (·.field) =
    if m.isGeneric t then []
    else ((m.fieldsOf t).filter fun f =>
      (m.flagsOf f).contains .static && !(m.flagsOf f).contains .literal).map m.qualify
  ascending : ∀ t, (l.offsetsFor t).Pairwise fun a b => a.field.field.row < b.field.field.row
  hasStatics_iff : ∀ t, l.hasStatics t = true ↔ ∃ f, m.Eligible t f
  fieldCount_eq : l.fieldCount = {p : TypeId × FieldId | m.Eligible p.1 p.2}.ncard

namespace Module

variable {m : Module}

/-- As many fields are visited as are eligible. -/
theorem Numbered.length_statics (h : m.Numbered) :
    m.statics.length = {p : TypeId × FieldId | m.Eligible p.1 p.2}.ncard := by
  have hset : {p : TypeId × FieldId | m.Eligible p.1 p.2} = (m.statics.toFinset : Set _) := by
    ext ⟨t, f⟩
    rw [Finset.mem_coe, List.mem_toFinset, mem_statics]
    rfl
  rw [hset, Set.ncard_coe_finset, List.toFinset_card_of_nodup h.nodup_statics.of_map]

/-- A layout of a numbered module places each eligible field once. -/
theorem Numbered.placesStatics (hm : m.Numbered) {options : LayoutOptions} {l : Layout}
    (h : m.layout options = .ok l) : l.PlacesStatics m := by
  have hfields : l.placements.map (·.2.field) = (m.statics.map (·.2)).map m.qualify := by
    have hsnd := congrArg (List.map Prod.snd) (map_placements h)
    rw [List.map_map, List.map_map] at hsnd
    rw [List.map_map]
    exact hsnd
  have hnodup : (l.placements.map (·.2.field)).Nodup := by
    rw [hfields]
    exact hm.nodup_statics.map fun f g => qualify_inj.1
  have hmem : ∀ t f, (t, m.qualify f) ∈ l.placements.map (fun p => (p.1, p.2.field)) ↔
      m.Eligible t f := by
    intro t f
    constructor
    · intro hplaced
      obtain ⟨⟨t', o⟩, ho, heq⟩ := List.mem_map.1 hplaced
      obtain ⟨rfl, hqualified⟩ := Prod.mk.inj heq
      obtain ⟨g, hg, hfield⟩ := exists_eligible_of_mem_placements h ho
      obtain rfl : g = f := qualify_inj.1 (hfield.symm.trans hqualified)
      exact hg
    · intro hf
      obtain ⟨o, ho, hfield⟩ := hf.mem_placements h
      exact List.mem_map.2 ⟨(t, o), ho, by rw [hfield]⟩
  refine ⟨?home_eq, hmem, ?count_eq, hnodup, map_offsetsFor h, ?ascending, ?hasStatics_iff,
    ?fieldCount_eq⟩
  case home_eq =>
    rintro ⟨t, o⟩ ho
    obtain ⟨f, -, hfield⟩ := exists_eligible_of_mem_placements h ho
    exact congrArg QualifiedField.home hfield
  case count_eq =>
    intro t f hf
    have hpairs : (l.placements.map fun p => (p.1, p.2.field)).Nodup := by
      apply List.Nodup.of_map Prod.snd
      rw [List.map_map]
      exact hnodup
    exact List.count_eq_one_of_mem hpairs ((hmem t f).2 hf)
  case ascending =>
    intro t
    have hrows : ((l.offsetsFor t).map (·.field)).Pairwise fun a b => a.field.row < b.field.row := by
      rw [map_offsetsFor h]
      split
      · exact .nil
      · exact List.pairwise_map.2 ((hm.ascending t).filter _)
    rw [List.pairwise_map] at hrows
    exact hrows
  case hasStatics_iff =>
    intro t
    rw [hasStatics_eq_true_iff h]
    constructor
    · rintro ⟨o, ho⟩
      obtain ⟨f, hf, -⟩ := exists_eligible_of_mem_placements h ho
      exact ⟨f, hf⟩
    · rintro ⟨f, hf⟩
      obtain ⟨o, ho, -⟩ := hf.mem_placements h
      exact ⟨o, ho⟩
  case fieldCount_eq =>
    rw [l.fieldCount_eq_length, ← List.length_map (·.2.field), hfields, List.length_map,
      List.length_map]
    exact hm.length_statics

/-- A layout of a module that was built by declarations, and whose fields fit their table, places each
eligible field once: none is lost, none doubled, and none is put under a type that does not declare it. -/
theorem placesStatics_of_layout_build {id : ModuleId} {pointerSize : UInt32}
    {history : List Declaration} {options : LayoutOptions} {l : Layout}
    (hsize : (build id pointerSize history).fields.size < UInt32.size)
    (h : (build id pointerSize history).layout options = .ok l) :
    l.PlacesStatics (build id pointerSize history) :=
  (numbered_build hsize).placesStatics h

end Module

/-- A module in which some fields are no statics, and a generic type stands before the others. -/
def sparseModule : Module :=
  .build ⟨3⟩ 4 [
    .genericType ⟨"App", "Pool"⟩ 1, .type ⟨"App", "Node"⟩, .type ⟨"App", "Limits"⟩,
    .field ⟨3⟩ "largest" ⟨0x50⟩ [0x06],
    .field ⟨2⟩ "first" .static [0x06, 0x12, 0x08],
    .field ⟨1⟩ "shared" .static [],
    .field ⟨3⟩ "count" .static [0x06, 0x08],
    .field ⟨2⟩ "next" .none [0x06, 0x12, 0x08],
    .field ⟨2⟩ "total" .static [0x06, 0x0A]]

/-- Its layout for primitives of eight bytes. -/
def sparseLayout : Layout where
  home := ⟨3⟩
  blocks := ⟨⟨4, 8⟩, ⟨44, 8⟩, ⟨0, 8⟩, ⟨15, 8⟩⟩
  types := ⟨[(2, [⟨⟨⟨3⟩, ⟨2⟩⟩, .gc, 0⟩, ⟨⟨⟨3⟩, ⟨6⟩⟩, .nonGc, 32⟩]), (3, [⟨⟨⟨3⟩, ⟨4⟩⟩, .nonGc, 40⟩])],
    by decide⟩

theorem layout_sparseModule : sparseModule.layout ⟨8⟩ = .ok sparseLayout := by decide +kernel

theorem Module.placesStatics_of_layout_build_sparseModule :
    sparseModule.fields.size < UInt32.size ∧ sparseModule.layout ⟨8⟩ = .ok sparseLayout ∧
      sparseLayout.PlacesStatics sparseModule :=
  ⟨by decide, layout_sparseModule, placesStatics_of_layout_build (by decide) layout_sparseModule⟩

end StaticStorage
