import StaticStorage.Proofs.Cache.Transparency
import StaticStorage.Proofs.Cache.WarmUp

/-!
# The order of a warm-up

Modules whose layouts can be computed, and which have one layout for each identity, may be requested in any
order, one by one or by any number of callers whose steps are interleaved. In the end the cache is the same:
it holds what it held before, and the computed layout for each identity that is new. Every request succeeds.

* `FilledBy.unique` — a cache that is filled by the modules is determined by them.
* `Serves.filledBy`, `SharedCache.filledBy_requests` — requests one by one, and requests whose steps are
  interleaved, fill the cache.
* `exists_convergesTo` — all of them end in one cache.
-/

namespace StaticStorage

namespace Cache

variable {c warmed warmed' : Cache} {modules order : List Module}

/-- The cache holds what was published before, and for each new identity among the modules their layout. -/
structure FilledBy (c : Cache) (modules : List Module) (warmed : Cache) : Prop where
  grows : c.Grows warmed
  added : ∀ m ∈ modules, c.get? m.id = none →
    ∃ l, m.layout c.options = .ok l ∧ warmed.get? m.id = some l
  get?_eq_none : ∀ id, c.get? id = none → (∀ m ∈ modules, m.id ≠ id) → warmed.get? id = none

/-- A filled cache is determined by what was there and by the modules. -/
theorem FilledBy.unique (h : c.FilledBy modules warmed) (h' : c.FilledBy modules warmed') :
    warmed = warmed' := by
  have hget : ∀ id, warmed.get? id = warmed'.get? id := by
    intro id
    cases hold : c.get? id with
    | some l => rw [h.grows.keeps hold, h'.grows.keeps hold]
    | none =>
      by_cases hnew : ∃ m ∈ modules, m.id = id
      · obtain ⟨m, hm, rfl⟩ := hnew
        obtain ⟨l, hlayout, hl⟩ := h.added m hm hold
        obtain ⟨l', hlayout', hl'⟩ := h'.added m hm hold
        rw [hl, hl', Except.ok.inj (hlayout.symm.trans hlayout')]
      · have hnone : ∀ m ∈ modules, m.id ≠ id := fun m hm hid => hnew ⟨m, hm, hid⟩
        rw [h.get?_eq_none id hold hnone, h'.get?_eq_none id hold hnone]
  obtain ⟨options, published⟩ := warmed
  obtain ⟨options', published'⟩ := warmed'
  obtain rfl : options = options' := h.grows.options_eq.trans h'.grows.options_eq.symm
  obtain rfl : published = published' := WordMap.ext_get? fun row => hget ⟨row⟩
  rfl

/-- In which order the modules are listed does not matter. -/
theorem FilledBy.of_perm (h : c.FilledBy modules warmed) (horder : order.Perm modules) :
    c.FilledBy order warmed :=
  ⟨h.grows, fun m hm => h.added m (horder.mem_iff.1 hm),
    fun id hget hnone => h.get?_eq_none id hget fun m hm => hnone m (horder.mem_iff.2 hm)⟩

/-! ## One request after the other -/

/-- Modules with one layout for each identity fill the cache when they are requested in turn. -/
theorem Serves.filledBy (h : c.Serves modules warmed) (hconsistent : Consistent c.options modules) :
    c.FilledBy modules warmed := by
  refine ⟨h.grows, fun m hm hget => ?_, fun id hget hnone => ?_⟩
  · obtain ⟨l, hl⟩ := h.exists_get?_eq_some hm
    rcases (h.get?_eq_some_iff m.id l).1 hl with hold | ⟨-, m', hfind, hlayout⟩
    · rw [hget] at hold
      cases hold
    · -- the layout is that of the first module with the identity, and so that of this one
      have hid : m'.id = m.id := by simpa using List.find?_some hfind
      rw [hconsistent m' (List.mem_of_find?_eq_some hfind) m hm hid] at hlayout
      exact ⟨l, hlayout, hl⟩
  · apply Option.eq_none_iff_forall_ne_some.2
    intro l hl
    rcases (h.get?_eq_some_iff id l).1 hl with hold | ⟨-, m, hfind, -⟩
    · rw [hget] at hold
      cases hold
    · have hid : m.id = id := by simpa using List.find?_some hfind
      exact hnone m (List.mem_of_find?_eq_some hfind) hid

/-- Requests for modules that all have layouts serve them all. -/
theorem exists_serves (hlaidOut : ∀ m ∈ modules, ∃ l, m.layout c.options = .ok l) :
    ∃ warmed, c.requestAll modules = (.ok (), warmed) ∧ c.Serves modules warmed := by
  rcases c.requestAll_cases modules with ⟨warmed, heq, -, hserves⟩ | ⟨n, e, after, -, hfirst, -⟩
  · exact ⟨warmed, heq, hserves⟩
  · obtain ⟨m, hm, -, herror⟩ := hfirst.failsAt
    obtain ⟨l, hlayout⟩ := hlaidOut m (List.mem_of_getElem? hm)
    rw [herror] at hlayout
    cases hlayout

end Cache

/-! ## Interleaved requests -/

namespace SharedCache

variable {c : Cache} {order : List Module} {schedule : List ℕ} {m : Module} {l : Layout} {i : ℕ}

/-- Requests for the modules, as far as a schedule lets them come. -/
def requests (c : Cache) (order : List Module) (schedule : List ℕ) : SharedCache :=
  (start c (order.map .request)).run schedule

theorem grows_requests : c.Grows (requests c order schedule).cache := (sound_start c _).grows_run schedule

/-- What is published on the way was published before, or is the layout that all modules of the identity have. -/
theorem get?_requests (hconsistent : Consistent c.options order) {id : ModuleId}
    (hget : (requests c order schedule).cache.get? id = some l) :
    c.get? id = some l ∨
      (∃ m ∈ order, m.id = id) ∧ ∀ m ∈ order, m.id = id → m.layout c.options = .ok l := by
  rcases (sound_start c _).exists_request_of_get? schedule hget with hold | ⟨m, hm, rfl, hlayout⟩
  · exact .inl hold
  · rw [operations_start] at hm
    obtain ⟨m, hmem, ⟨⟩⟩ := List.mem_map.1 hm
    refine .inr ⟨⟨m, hmem, rfl⟩, fun m' hm' hid => ?_⟩
    rw [hconsistent m' hm' m hmem hid]
    exact hlayout

/-- A request for a module that has a layout is answered with the one that is published. -/
theorem exists_answer_requests (hlaidOut : ∀ m ∈ order, ∃ l, m.layout c.options = .ok l)
    (hm : order[i]? = some m) {answer : Answer} (hanswer : (requests c order schedule).answer? i = some answer) :
    ∃ l, answer = .layout (.ok l) ∧ (requests c order schedule).cache.get? m.id = some l := by
  have hoperation : (requests c order schedule).operations[i]? = some (.request m) := by
    rw [requests, operations_run, operations_start, List.getElem?_map, hm]
    rfl
  have hsound : (requests c order schedule).Sound := (sound_start c _).run schedule
  rcases hsound.answer?_request hoperation hanswer with ⟨l, heq, hget⟩ | ⟨e, -, herror⟩
  · exact ⟨l, heq, hget⟩
  · obtain ⟨l, hlayout⟩ := hlaidOut m (List.mem_of_getElem? hm)
    rw [grows_requests.options_eq, hlayout] at herror
    cases herror

/-- Once all requests are answered, the modules fill the cache. -/
theorem filledBy_requests (hconsistent : Consistent c.options order)
    (hlaidOut : ∀ m ∈ order, ∃ l, m.layout c.options = .ok l)
    (hanswered : ∀ i < order.length, ((requests c order schedule).answer? i).isSome) :
    c.FilledBy order (requests c order schedule).cache := by
  refine ⟨grows_requests, fun m hm hget => ?_, fun id hget hnone => ?_⟩
  · obtain ⟨i, hi, rfl⟩ := List.getElem_of_mem hm
    obtain ⟨answer, hanswer⟩ := Option.isSome_iff_exists.1 (hanswered i hi)
    obtain ⟨l, -, hl⟩ := exists_answer_requests hlaidOut (List.getElem?_eq_getElem hi) hanswer
    rcases get?_requests hconsistent hl with hold | ⟨-, hlayout⟩
    · rw [hget] at hold
      cases hold
    · exact ⟨l, hlayout _ hm rfl, hl⟩
  · apply Option.eq_none_iff_forall_ne_some.2
    intro l hl
    rcases get?_requests hconsistent hl with hold | ⟨⟨m, hm, hid⟩, -⟩
    · rw [hget] at hold
      cases hold
    · exact hnone m hm hid

/-- What is published on the way is published in every cache that the modules fill. -/
theorem get?_of_get?_requests {warmed : Cache} (hwarmed : c.FilledBy order warmed)
    (hconsistent : Consistent c.options order) {id : ModuleId}
    (hget : (requests c order schedule).cache.get? id = some l) : warmed.get? id = some l := by
  rcases get?_requests hconsistent hget with hold | ⟨⟨m, hm, rfl⟩, hlayout⟩
  · exact hwarmed.grows.keeps hold
  · cases hold : c.get? m.id with
    | some l' =>
      rw [grows_requests.keeps hold] at hget
      rw [hwarmed.grows.keeps hold, hget]
    | none =>
      obtain ⟨l', hlayout', hget'⟩ := hwarmed.added m hm hold
      rw [hget', Except.ok.inj (hlayout'.symm.trans (hlayout m hm rfl))]

end SharedCache

/-! ## All orders -/

namespace Cache

open SharedCache (requests)

/-- Requests for the modules end in the given cache and succeed, whether they are made one by one in this order
or by callers whose steps are interleaved. -/
structure ConvergesTo (c : Cache) (order : List Module) (warmed : Cache) : Prop where
  requestAll_eq : c.requestAll order = (.ok (), warmed)
  serves : c.Serves order warmed
  /-- So does a batch, into whichever pieces it is divided. -/
  precomputeIn_eq : ∀ pieces, pieces.flatten = order → c.precomputeIn pieces = (.ok (), warmed)
  /-- A worker alone divides it in one of these ways. -/
  precompute_eq : ∀ outside, c.precompute order outside = (.ok (), warmed)
  /-- The cache is the same after every interleaving in which all requests are answered. -/
  cache_eq : ∀ schedule, (∀ i < order.length, ((requests c order schedule).answer? i).isSome) →
    (requests c order schedule).cache = warmed
  /-- Whoever is answered, at whatever time, gets a layout, and this layout is there in the end. -/
  succeeds : ∀ schedule i m answer, order[i]? = some m →
    (requests c order schedule).answer? i = some answer →
      ∃ l, answer = .layout (.ok l) ∧ warmed.get? m.id = some l
  /-- Three turns answer a request. -/
  answers : ∀ schedule, ∀ i < order.length, 3 ≤ schedule.count i →
    ((requests c order schedule).answer? i).isSome

/-- Modules that all have layouts, and one for each identity, leave the same cache in whichever order they are
requested, and however the steps of the requests are interleaved. -/
theorem exists_convergesTo {c : Cache} {modules : List Module} (hconsistent : Consistent c.options modules)
    (hlaidOut : ∀ m ∈ modules, ∃ l, m.layout c.options = .ok l) :
    ∃ warmed, c.FilledBy modules warmed ∧ ∀ order, order.Perm modules → c.ConvergesTo order warmed := by
  obtain ⟨warmed, -, hserves⟩ := exists_serves hlaidOut
  have hfilled := hserves.filledBy hconsistent
  refine ⟨warmed, hfilled, fun order horder => ?_⟩
  have hfilled' : c.FilledBy order warmed := hfilled.of_perm horder
  have hconsistent' : Consistent c.options order := fun m hm m' hm' =>
    hconsistent m (horder.mem_iff.1 hm) m' (horder.mem_iff.1 hm')
  have hlaidOut' : ∀ m ∈ order, ∃ l, m.layout c.options = .ok l := fun m hm =>
    hlaidOut m (horder.mem_iff.1 hm)
  obtain ⟨warmed', heq, hserves'⟩ := exists_serves hlaidOut'
  obtain rfl := (hserves'.filledBy hconsistent').unique hfilled'
  have hpieces : ∀ pieces, pieces.flatten = order → c.precomputeIn pieces = (.ok (), warmed') :=
    fun pieces hflatten => precomputeIn_eq_ok (hflatten ▸ heq)
  refine ⟨heq, hserves', hpieces, fun outside => ?precompute_eq, fun schedule hanswered => ?cache_eq,
    fun schedule i m answer hm hanswer => ?succeeds, fun schedule i hi hcount => ?answers⟩
  case precompute_eq =>
    obtain ⟨pieces, hflatten, hdivided⟩ := c.exists_precompute_eq order outside
    rw [hdivided, hpieces pieces hflatten]
  case cache_eq =>
    exact (SharedCache.filledBy_requests hconsistent' hlaidOut' hanswered).unique hfilled'
  case succeeds =>
    obtain ⟨l, hanswer', hget⟩ := SharedCache.exists_answer_requests hlaidOut' hm hanswer
    exact ⟨l, hanswer', SharedCache.get?_of_get?_requests hfilled' hconsistent' hget⟩
  case answers =>
    exact SharedCache.isSome_answer?_run_start c (by rwa [List.length_map]) hcount

/-- A cache that holds a layout under the identity of the cell module, though of another module. -/
def startedCache : Cache :=
  ((Cache.empty ⟨8⟩).getOrCreate (.build ⟨8⟩ 8 [.type ⟨"App", "Cell"⟩])).2

/-- Two modules of one identity, one that takes the place of a published one, and one without fields. -/
def warmUpModules : List Module :=
  [counterModule, .build ⟨8⟩ 8 [.type ⟨"App", "Cell"⟩, .field ⟨1⟩ "size" .static [0x06, 0x08]],
    renamedModule, .build ⟨9⟩ 8 []]

theorem consistent_warmUpModules : Consistent startedCache.options warmUpModules := by
  have hid : ∀ m ∈ warmUpModules, ∀ m' ∈ warmUpModules, m.id = m'.id →
      m = m' ∨ m.id = ⟨7⟩ ∧ m'.id = ⟨7⟩ := by
    decide
  have hlayout : ∀ m ∈ warmUpModules, m.id = ⟨7⟩ → m.layout ⟨8⟩ = counterModule.layout ⟨8⟩ := by
    simp [warmUpModules, layout_renamedModule]
    decide
  intro m hm m' hm' hsame
  rcases hid m hm m' hm' hsame with rfl | ⟨h, h'⟩
  · rfl
  · exact (hlayout m hm h).trans (hlayout m' hm' h').symm

/-- The modules all have layouts. -/
theorem exists_layout_warmUpModules : ∀ m ∈ warmUpModules, ∃ l, m.layout startedCache.options = .ok l := by
  have hok : ∀ m ∈ warmUpModules, (m.layout ⟨8⟩).isOk = true := by decide +kernel
  intro m hm
  change ∃ l, m.layout ⟨8⟩ = .ok l
  cases hlayout : m.layout ⟨8⟩ with
  | ok l => exact ⟨l, rfl⟩
  | error e =>
    have h := hok m hm
    rw [hlayout] at h
    cases h

theorem exists_convergesTo_warmUpModules :
    Consistent startedCache.options warmUpModules ∧
      (∀ m ∈ warmUpModules, ∃ l, m.layout startedCache.options = .ok l) ∧
      (startedCache.get? ⟨8⟩).isSome ∧
      ∃ warmed, startedCache.FilledBy warmUpModules warmed ∧
        ∀ order, order.Perm warmUpModules → startedCache.ConvergesTo order warmed :=
  ⟨consistent_warmUpModules, exists_layout_warmUpModules, by decide +kernel,
    exists_convergesTo consistent_warmUpModules exists_layout_warmUpModules⟩

end Cache

end StaticStorage
