import Mathlib.Data.Set.Card
import StaticStorage.Proofs.Cache.Steps
import StaticStorage.Proofs.Packing.Walk

/-!
# What a shared cache publishes

However the steps of its users are interleaved, a cache that starts empty holds layouts of requested
modules only, each under its own identity, never takes one back, and answers every request that succeeds
with the layout that is published. Modules of different contents under one identity, and modules without
a layout, are no exception: the first publication counts, and a failure publishes nothing.

* `Sound.exists_request_of_get?` — what a run publishes is the layout of a module that was requested.
* `Cache.size_eq_ncard` — the size of a cache counts identities.
* `Reliable` — what users may rely on at every moment of every run.
-/

namespace StaticStorage

namespace Cache

/-- The size of a cache is the number of identities under which a layout is published. -/
theorem size_eq_ncard (c : Cache) : c.size = {id | c.contains id = true}.ncard := by
  have hnodup : (c.published.entries.map fun entry => ModuleId.mk entry.1).Nodup := by
    apply List.pairwise_map.2
    apply c.published.ascending.imp
    intro a b hlt heq
    exact UInt32.ne_of_lt hlt (congrArg ModuleId.raw heq)
  have hset : {id | c.contains id = true} =
      ((c.published.entries.map fun entry => ModuleId.mk entry.1).toFinset : Set ModuleId) := by
    ext id
    change c.contains id = true ↔ _
    rw [Finset.mem_coe, List.mem_toFinset, List.mem_map]
    constructor
    · intro hcontains
      obtain ⟨l, hget⟩ := Option.isSome_iff_exists.1 hcontains
      exact ⟨(id.raw, l), (WordMap.get?_eq_some_iff _).1 hget, rfl⟩
    · rintro ⟨⟨raw, l⟩, hentry, rfl⟩
      exact Option.isSome_iff_exists.2 ⟨l, (WordMap.get?_eq_some_iff _).2 hentry⟩
  rw [hset, Set.ncard_coe_finset, List.toFinset_card_of_nodup hnodup, List.length_map]
  rfl

end Cache

namespace SharedCache

variable {s : SharedCache}

/-- Whatever a run publishes is the layout of a module that was requested, under its own identity. -/
theorem Sound.exists_request_of_get? (h : s.Sound) (schedule : List ℕ) {id : ModuleId} {l : Layout}
    (hget : (s.run schedule).cache.get? id = some l) :
    s.cache.get? id = some l ∨
      ∃ m, .request m ∈ s.operations ∧ m.id = id ∧ m.layout s.cache.options = .ok l := by
  have hrun : (s.run schedule).Sound ∧ (s.run schedule).cache.options = s.cache.options ∧
      (s.run schedule).operations = s.operations ∧
      ∀ id l, (s.run schedule).cache.get? id = some l → s.cache.get? id = some l ∨
        ∃ m, .request m ∈ s.operations ∧ m.id = id ∧ m.layout s.cache.options = .ok l := by
    refine run_induction (P := fun s' => s'.Sound ∧ s'.cache.options = s.cache.options ∧
      s'.operations = s.operations ∧
      ∀ id l, s'.cache.get? id = some l → s.cache.get? id = some l ∨
        ∃ m, .request m ∈ s.operations ∧ m.id = id ∧ m.layout s.cache.options = .ok l)
      ?_ ⟨h, rfl, rfl, fun id l => .inl⟩ schedule
    rintro s' i ⟨hsound, hoptions, hoperations, horigin⟩
    refine ⟨hsound.step i, (hsound.grows_step i).options_eq.trans hoptions,
      (s'.operations_step i).trans hoperations, fun id l hget => ?_⟩
    rcases s'.step_eq i with ⟨-, hstep⟩ | ⟨call, hcall, hstep⟩
    · rw [hstep] at hget
      exact horigin id l hget
    · have hmem := List.mem_of_getElem? hcall
      rw [hstep] at hget
      rcases Call.step_cache (hsound call hmem) with hcache | ⟨m, computed, hlayout, hnone, rfl, heq⟩
      · rw [hcache] at hget
        exact horigin id l hget
      · simp only [heq, Cache.get?_publish] at hget
        -- the new entry is the layout of the call's own module, and all other entries are old
        split at hget
        · next hid =>
          rw [Cache.publish_of_get?_eq_none computed hnone] at hget
          cases hget
          refine .inr ⟨m, ?_, hid.symm, hoptions ▸ hlayout⟩
          rw [← hoperations]
          exact List.mem_map_of_mem hmem
        · exact horigin id l hget
  exact hrun.2.2.2 id l hget

/-- A request that was answered with a layout is for a module under whose identity just that layout is
published. -/
theorem Sound.get?_of_answer? (h : s.Sound) {i : ℕ} {m : Module} {l : Layout}
    (hoperation : s.operations[i]? = some (.request m))
    (hanswer : s.answer? i = some (.layout (.ok l))) : s.cache.get? m.id = some l := by
  obtain ⟨call, hcall, hcalloperation, hcallanswer⟩ := exists_call_of_answer? hoperation hanswer
  have hsound := h call hcall
  match call with
  | .request m' (.answered answer) =>
    cases hcalloperation
    cases hcallanswer
    exact hsound
  | .query q answer => cases hcalloperation

/-- What users of a cache may rely on: nothing published is ever taken back, everything published is the
layout of a requested module, and all answers for one identity are the published layout. -/
structure Reliable (s : SharedCache) (options : LayoutOptions) (operations : List Operation) :
    Prop where
  kept : ∀ id l more, s.cache.get? id = some l → (s.run more).cache.get? id = some l
  origin : ∀ id l, s.cache.get? id = some l →
    ∃ m, .request m ∈ operations ∧ m.id = id ∧ m.layout options = .ok l ∧ l.home = id
  answered : ∀ i m l, operations[i]? = some (.request m) → s.answer? i = some (.layout (.ok l)) →
    s.cache.get? m.id = some l
  agree : ∀ i j m m' l l', operations[i]? = some (.request m) → operations[j]? = some (.request m') →
    m.id = m'.id → s.answer? i = some (.layout (.ok l)) → s.answer? j = some (.layout (.ok l')) → l = l'
  size_eq : s.cache.size = {id | s.cache.contains id = true}.ncard
  contains_iff : ∀ id, s.cache.contains id = true ↔ ∃ l, s.cache.get? id = some l
  isEmpty_iff : s.cache.isEmpty = true ↔ s.cache.size = 0

/-- However the calls on an empty cache are interleaved, users may rely on it at every moment. -/
theorem reliable_run_empty (options : LayoutOptions) (operations : List Operation)
    (schedule : List ℕ) :
    ((start (.empty options) operations).run schedule).Reliable options operations := by
  have hstart := sound_start (.empty options) operations
  have hsound := hstart.run schedule
  have hoperations := (operations_run (start (.empty options) operations) schedule).trans
    (operations_start _ operations)
  have hanswered : ∀ i m l, operations[i]? = some (.request m) →
      ((start (.empty options) operations).run schedule).answer? i = some (.layout (.ok l)) →
      ((start (.empty options) operations).run schedule).cache.get? m.id = some l := by
    intro i m l hi
    rw [← hoperations] at hi
    exact hsound.get?_of_answer? hi
  refine ⟨?kept, ?origin, hanswered, ?agree, Cache.size_eq_ncard _, ?contains_iff, beq_iff_eq⟩
  case kept =>
    intro id l more hget
    exact (hsound.grows_run more).keeps hget
  case origin =>
    intro id l hget
    rcases hstart.exists_request_of_get? schedule hget with hold | ⟨m, hmem, rfl, hlayout⟩
    · exact absurd (hold.symm.trans (Cache.get?_empty options id)) (Option.some_ne_none l)
    · rw [operations_start] at hmem
      obtain ⟨-, -, -, -, -, -, hhome, -⟩ := Module.layout_eq_ok hlayout
      exact ⟨m, hmem, rfl, hlayout, hhome⟩
  case agree =>
    intro i j m m' l l' hi hj hid hl hl'
    have hget := hanswered i m l hi hl
    rw [hid, hanswered j m' l' hj hl'] at hget
    exact (Option.some.inj hget).symm
  case contains_iff =>
    intro id
    exact Option.isSome_iff_exists

end SharedCache

end StaticStorage
