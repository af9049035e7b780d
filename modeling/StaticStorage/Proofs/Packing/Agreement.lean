import StaticStorage.Proofs.Packing.Placements
import StaticStorage.Proofs.Packing.Renaming
import StaticStorage.Proofs.Packing.SlotRules

/-!
# What a layout depends on

Of a field, storage needs what its signature is decoded to and whether each thread has its own; of a type,
whether it is generic, whether it is confined to the stack and which statics it has. Two modules that agree
in this have the same layout or fail for the same reason, and only the rows of the fields differ, as they
differ in the modules. So the names, the other attributes and flags, the bytes that are never read, the
fields that are no statics and the order in which types are given their fields have no part in a layout.

* `SameStorage` — two modules agree in what storage needs of them.
* `SameStorage.statics_eq` — such modules have the same statics, each with its counterpart.
* `SameStorage.sameLayout` — and the same layout, up to the names of the statics.
-/

namespace StaticStorage

namespace Module

variable {m m' : Module}

/-! ## Modules that agree -/

/-- What storage needs of a field: what its signature is decoded to, and whether each thread has its own. -/
def storageView (m : Module) (f : FieldId) : Except SignatureError FieldSignature × Bool :=
  (FieldSignature.decode (m.signatureOf f), m.isThreadStatic f)

/-- Two modules agree in what storage needs of them. -/
structure SameStorage (m m' : Module) : Prop where
  id_eq : m'.id = m.id
  pointerSize_eq : m'.pointerSize = m.pointerSize
  typeCount_eq : m'.typeCount = m.typeCount
  isGeneric_eq : ∀ t ∈ m.typeIds, m'.isGeneric t = m.isGeneric t
  isByRefLike_eq : ∀ t ∈ m.typeIds, m'.isByRefLike (.typeDef t) = m.isByRefLike (.typeDef t)
  /-- The statics of a type are as many, and one by one they look the same to storage. -/
  views_eq : ∀ t ∈ m.typeIds, m.isGeneric t = false →
    (m'.staticsOf t).map m'.storageView = (m.staticsOf t).map m.storageView

/-- The static of the other module that is visited when the field is visited in this one. -/
def counterpart (m m' : Module) (f : FieldId) : FieldId :=
  (m'.statics.map (·.2)).getD ((m.statics.map (·.2)).idxOf f) f

namespace SameStorage

variable (h : m.SameStorage m')
include h

theorem typeIds_eq : m'.typeIds = m.typeIds := by
  unfold typeIds
  rw [h.typeCount_eq]

/-- Type by type, the same is visited. -/
theorem map_storageView_statics :
    m'.statics.map (fun p => (p.1, m'.storageView p.2)) =
      m.statics.map fun p => (p.1, m.storageView p.2) := by
  unfold statics
  rw [List.map_flatMap, List.map_flatMap, h.typeIds_eq]
  refine List.flatMap_congr fun t ht => ?_
  rw [h.isGeneric_eq t ht]
  cases hgeneric : m.isGeneric t with
  | true => rfl
  | false =>
    have hviews := congrArg (List.map (Prod.mk t)) (h.views_eq t ht hgeneric)
    rw [List.map_map, List.map_map] at hviews
    rw [if_neg Bool.false_ne_true, if_neg Bool.false_ne_true, List.map_map, List.map_map]
    exact hviews

/-- The statics of the other module are the counterparts, under the same types. -/
theorem statics_eq (hm : m.Numbered) :
    m'.statics = m.statics.map fun p => (p.1, m.counterpart m' p.2) := by
  have hviews := h.map_storageView_statics
  have hlength : m'.statics.length = m.statics.length := by
    simpa using congrArg List.length hviews
  have hnodup := hm.nodup_statics
  apply List.ext_getElem
  · rw [List.length_map, hlength]
  · intro i hi' hi
    rw [List.length_map] at hi
    have htype : m'.statics[i].1 = m.statics[i].1 := by
      have hviews_i := congrArg (·[i]?.map (·.1)) hviews
      simpa [hi, hi'] using hviews_i
    have hidx : (m.statics.map (·.2)).idxOf m.statics[i].2 = i := by
      have hidx_i := hnodup.idxOf_getElem i (by simpa using hi)
      simpa using hidx_i
    rw [List.getElem_map, counterpart, hidx]
    ext <;> simp [htype, hi']

/-- A static and its counterpart look the same to storage. -/
theorem storageView_counterpart (hm : m.Numbered) :
    ∀ p ∈ m.statics, m'.storageView (m.counterpart m' p.2) = m.storageView p.2 := by
  have hviews := h.map_storageView_statics
  rw [h.statics_eq hm, List.map_map, List.map_inj_left] at hviews
  intro p hp
  exact (Prod.mk.inj (hviews p hp)).2

/-- A static and its counterpart demand the same. -/
theorem demand_counterpart (hm : m.Numbered) (target : Target) :
    ∀ p ∈ m.statics, m'.demand target (m.counterpart m' p.2) =
      (m.demand target p.2).mapError (LayoutError.rename (m.counterpart m')) := by
  intro p hp
  obtain ⟨hdecode, hthread⟩ := Prod.mk.inj (h.storageView_counterpart hm p hp)
  exact demand_rename hdecode hthread
    (slotFor_congr h.typeCount_eq (fun t ht => h.isByRefLike_eq t (mem_typeIds.2 ht)) target)

/-- The statics of a type have those of the same type as counterparts, one by one. -/
theorem staticsOf_eq (hm : m.Numbered) {t : TypeId} (ht : t ∈ m.typeIds) (hgeneric : m.isGeneric t = false) :
    m'.staticsOf t = (m.staticsOf t).map (m.counterpart m') := by
  have hvisits := m'.filter_statics t
  rw [h.statics_eq hm, List.filter_map] at hvisits
  change (m.statics.filter (·.1 = t)).map _ = _ at hvisits
  rw [m.filter_statics, visits, visits, h.isGeneric_eq t ht, hgeneric, if_neg Bool.false_ne_true,
    if_neg Bool.false_ne_true, List.map_map] at hvisits
  have hfields := congrArg (List.map Prod.snd) hvisits
  rw [List.map_map, List.map_map] at hfields
  simpa [Function.comp_def] using hfields.symm

/-- Different statics have different counterparts. -/
theorem injOn_counterpart (hm : m.Numbered) (hm' : m'.Numbered) :
    Set.InjOn (m.counterpart m') {f | ∃ t, m.Eligible t f} := by
  have hnodup := hm'.nodup_statics
  rw [h.statics_eq hm, List.map_map] at hnodup
  rintro f ⟨t, hf⟩ f' ⟨t', hf'⟩ heq
  exact congrArg Prod.snd
    (List.inj_on_of_nodup_map hnodup (mem_statics.2 hf) (mem_statics.2 hf') heq)

end SameStorage

/-! ## The outcomes -/

/-- Two modules have the same layout or fail for the same reason, up to a renaming of their statics. -/
structure SameLayout (m m' : Module) (ρ : FieldId → FieldId) : Prop where
  /-- The statics of a type are renamed one by one. -/
  staticsOf_eq : ∀ t ∈ m.typeIds, m.isGeneric t = false → m'.staticsOf t = (m.staticsOf t).map ρ
  /-- No two of them get the same name. -/
  injOn : Set.InjOn ρ {f | ∃ t, m.Eligible t f}
  /-- The outcome is that of the other module, under the new names. -/
  layout_eq : ∀ options, m'.layout options = renameOutcome ρ (Layout.rename ρ) (m.layout options)
  /-- The blocks are the same, and each type has its fields in the same places. -/
  places_eq : ∀ {options l l'}, m.layout options = .ok l → m'.layout options = .ok l' →
    l'.blocks = l.blocks ∧
      ∀ t, (l'.offsetsFor t).map (fun o => (o.block, o.offset)) =
        (l.offsetsFor t).map fun o => (o.block, o.offset)

/-- Under other names the fields are in the same places. -/
theorem places_eq_of_layout_eq {ρ : FieldId → FieldId} {options : LayoutOptions} {l l' : Layout}
    (h : ∀ options, m'.layout options = renameOutcome ρ (Layout.rename ρ) (m.layout options))
    (hl : m.layout options = .ok l) (hl' : m'.layout options = .ok l') :
    l'.blocks = l.blocks ∧
      ∀ t, (l'.offsetsFor t).map (fun o => (o.block, o.offset)) =
        (l.offsetsFor t).map fun o => (o.block, o.offset) := by
  rw [h, hl] at hl'
  obtain rfl := Except.ok.inj hl'
  refine ⟨rfl, fun t => ?_⟩
  rw [Layout.offsetsFor_rename, List.map_map]
  rfl

/-- Numbered modules that agree in what storage needs have the same layout. -/
theorem SameStorage.sameLayout (h : m.SameStorage m') (hm : m.Numbered) (hm' : m'.Numbered) :
    m.SameLayout m' (m.counterpart m') := by
  have hlayout := layout_rename (m.counterpart m') h.id_eq h.pointerSize_eq h.typeCount_eq (h.statics_eq hm)
    (h.demand_counterpart hm)
  exact ⟨fun t => h.staticsOf_eq hm, h.injOn_counterpart hm hm', hlayout, places_eq_of_layout_eq hlayout⟩

/-- Two modules that were built by declarations, and whose fields fit their tables, have the same layout or
fail for the same reason as soon as they agree in what storage needs, whatever else was declared. -/
theorem sameLayout_build {id id' : ModuleId} {pointerSize pointerSize' : UInt32}
    {history history' : List Declaration}
    (hsize : (build id pointerSize history).fields.size < UInt32.size)
    (hsize' : (build id' pointerSize' history').fields.size < UInt32.size)
    (h : (build id pointerSize history).SameStorage (build id' pointerSize' history')) :
    (build id pointerSize history).SameLayout (build id' pointerSize' history')
      ((build id pointerSize history).counterpart (build id' pointerSize' history')) :=
  h.sameLayout (numbered_build hsize) (numbered_build hsize')

end Module

/-- A module with the storage of `sparseModule` and little else in common with it: the names, the fields that
are no statics, the other flags and attributes and the bytes behind the signatures differ, and the types are
given their statics in another order. -/
def reorderedModule : Module :=
  .build ⟨3⟩ 4 [
    .genericType ⟨"Lib", "Cache"⟩ 2, .type ⟨"Lib", "Cell"⟩, .type ⟨"Lib", "Bounds"⟩,
    .typeAttribute ⟨2⟩ ⟨"System", "SerializableAttribute"⟩,
    .field ⟨3⟩ "number" ⟨0x16⟩ [0x06, 0x08, 0xFF],
    .fieldAttribute ⟨1⟩ ⟨"System", "ObsoleteAttribute"⟩,
    .field ⟨2⟩ "head" ⟨0x111⟩ [0x06, 0x12, 0x08],
    .field ⟨2⟩ "sum" .static [0x06, 0x0A, 0x00]]

theorem Module.SameStorage.sparseModule_reorderedModule : sparseModule.SameStorage reorderedModule := by
  refine ⟨rfl, rfl, ?_, ?_, ?_, ?_⟩ <;> decide +kernel

end StaticStorage
