import StaticStorage.Cache.History
import StaticStorage.Module.Declaration
import StaticStorage.Proofs.Cache.Publication

/-!
# A cache cannot be told from plain computation

Layouts are published under identities, and a cache asks no more of a module than its identity. So it
matters whether modules of one identity have one layout. If they do, nobody can tell a request to a cache
from the computation of the layout: whatever was requested, looked up, warmed up or has failed before, one
after the other or by several callers at the same time, the answer is the layout of the very module that
was handed in, or the very error.

* `Transparent.getOrCreate` — a request is answered as though it were computed anew.
* `Transparent.use` — one thing done with a cache is replied to so, and keeps the cache so.
-/

namespace StaticStorage

/-- Modules of one identity have the same layout, or none for the same reason. -/
def Consistent (options : LayoutOptions) (known : List Module) : Prop :=
  ∀ m ∈ known, ∀ m' ∈ known, m.id = m'.id → m.layout options = m'.layout options

/-- The layout is that of a known module with the identity. -/
def LaidOut (options : LayoutOptions) (known : List Module) (id : ModuleId) (l : Layout) : Prop :=
  ∃ m ∈ known, m.id = id ∧ m.layout options = .ok l

/-- The reply that there would be without a cache: layouts and errors are those of a computation of their
own, a generic type has four empty blocks and no fields, and what is found published is the layout of a
known module. -/
def Reply.Plain (options : LayoutOptions) (known : List Module) : Use → Reply → Prop
  | .request m, .layout answer => answer = m.layout options
  | .entry id, .entry published => ∀ l, published = some l → LaidOut options known id l
  | .typeLayout m t, .typeLayout answer =>
    answer = if m.isGeneric t then .ok ⟨.const ⟨0, 0⟩, []⟩ else (m.layout options).map (.ofLayout · t)
  | .precompute pieces, .precompute answer =>
    answer = (pieces.flatten.mapM fun m : Module => m.layout options).map fun _ => ()
  | .round operations _, .round answers =>
    (∀ (i : ℕ) (m : Module) (answer : Answer), operations[i]? = some (.request m) →
      answers[i]? = some (some answer) → answer = .layout (m.layout options)) ∧
    ∀ (i : ℕ) (id : ModuleId) (answer : Answer), operations[i]? = some (.query (.entry id)) →
      answers[i]? = some (some answer) →
        ∃ published, answer = .entry published ∧ ∀ l, published = some l → LaidOut options known id l
  | _, _ => False

/-- All layouts published are layouts of known modules. -/
structure Cache.Transparent (c : Cache) (options : LayoutOptions) (known : List Module) : Prop where
  options_eq : c.options = options
  laidOut : ∀ {id : ModuleId} {l : Layout}, c.get? id = some l → LaidOut options known id l

namespace Cache.Transparent

variable {c : Cache} {options : LayoutOptions} {known : List Module}

theorem empty (options : LayoutOptions) (known : List Module) :
    (Cache.empty options).Transparent options known where
  options_eq := rfl
  laidOut hget := absurd (hget.symm.trans (Cache.get?_empty options _)) (Option.some_ne_none _)

/-! ## Requests -/

/-- What is published for a known module is its layout. -/
theorem layout_eq_ok (h : c.Transparent options known) (hknown : Consistent options known)
    {m : Module} (hm : m ∈ known) {l : Layout} (hget : c.get? m.id = some l) :
    m.layout options = .ok l := by
  obtain ⟨m', hm', hid, hlayout⟩ := h.laidOut hget
  rw [hknown m hm m' hm' hid.symm, hlayout]

/-- The publication of a known module's layout keeps a cache transparent. -/
theorem publish (h : c.Transparent options known) {m : Module} (hm : m ∈ known) {l : Layout}
    (hlayout : m.layout options = .ok l) (hget : c.get? m.id = none) :
    (c.publish m.id l).2.Transparent options known where
  options_eq := (c.grows_publish m.id l).options_eq.trans h.options_eq
  laidOut {id l'} hget' := by
    rw [Cache.get?_publish] at hget'
    split at hget'
    · next hid =>
      rw [Cache.publish_of_get?_eq_none l hget] at hget'
      obtain rfl := Option.some.inj hget'
      exact ⟨m, hm, hid.symm, hlayout⟩
    · exact h.laidOut hget'

/-- A request is answered as though there were no cache. -/
theorem getOrCreate (h : c.Transparent options known) (hknown : Consistent options known)
    {m : Module} (hm : m ∈ known) :
    (c.getOrCreate m).1 = m.layout options ∧
      (c.getOrCreate m).2.Transparent options known := by
  rcases c.getOrCreate_cases m with ⟨l, hget, heq⟩ | ⟨e, -, hlayout, heq⟩ | ⟨l, hget, hlayout, heq⟩ <;>
    rw [heq]
  · exact ⟨(h.layout_eq_ok hknown hm hget).symm, h⟩
  · rw [h.options_eq] at hlayout
    exact ⟨hlayout.symm, h⟩
  · rw [h.options_eq] at hlayout
    exact ⟨hlayout.symm, h.publish hm hlayout hget⟩

theorem typeLayout (h : c.Transparent options known) (hknown : Consistent options known)
    {m : Module} (hm : m ∈ known) (t : TypeId) :
    (c.typeLayout m t).1 =
        (if m.isGeneric t then .ok ⟨.const ⟨0, 0⟩, []⟩ else (m.layout options).map (.ofLayout · t)) ∧
      (c.typeLayout m t).2.Transparent options known := by
  obtain ⟨hanswer, hafter⟩ := h.getOrCreate hknown hm
  unfold Cache.typeLayout
  split
  · exact ⟨rfl, h⟩
  · exact ⟨congrArg (Except.map (TypeLayout.ofLayout · t)) hanswer, hafter⟩

/-- Requests in turn fail with the error of the first module that has no layout, whatever is published. -/
theorem requestAll (h : c.Transparent options known) (hknown : Consistent options known)
    {modules : List Module} (hmodules : ∀ m ∈ modules, m ∈ known) :
    (c.requestAll modules).1 = ((modules.mapM fun m : Module => m.layout options).map fun _ => ()) ∧
      (c.requestAll modules).2.Transparent options known := by
  induction modules generalizing c with
  | nil => exact ⟨rfl, h⟩
  | cons m rest ih =>
    obtain ⟨hanswer, hafter⟩ := h.getOrCreate hknown (hmodules m List.mem_cons_self)
    rw [List.mapM_cons, ← hanswer]
    unfold Cache.requestAll
    generalize c.getOrCreate m = outcome at hanswer hafter ⊢
    obtain ⟨e | l, after⟩ := outcome
    · exact ⟨rfl, hafter⟩
    · obtain ⟨hrest, hlast⟩ := ih hafter fun m' hm' => hmodules m' (List.mem_cons_of_mem m hm')
      refine ⟨?_, hlast⟩
      dsimp only
      rw [hrest]
      cases rest.mapM fun m : Module => m.layout options <;> rfl

/-- So does a warm-up, and what is warmed up behind an overflow keeps a cache transparent as well. -/
theorem precomputeIn (h : c.Transparent options known) (hknown : Consistent options known)
    {pieces : List (List Module)} (hmodules : ∀ m ∈ pieces.flatten, m ∈ known) :
    (c.precomputeIn pieces).1 =
        ((pieces.flatten.mapM fun m : Module => m.layout options).map fun _ => ()) ∧
      (c.precomputeIn pieces).2.Transparent options known := by
  refine ⟨(c.fst_precomputeIn pieces).trans (h.requestAll hknown hmodules).1, ?_⟩
  induction pieces generalizing c with
  | nil => exact h
  | cons piece waiting ih =>
    rw [List.flatten_cons, List.forall_mem_append] at hmodules
    obtain ⟨hpiece, hwaiting⟩ := hmodules
    have hafter := (h.requestAll hknown hpiece).2
    unfold Cache.precomputeIn
    split
    · next c' heq =>
      rw [heq] at hafter
      exact ih hafter hwaiting
    · next c' heq =>
      rw [heq] at hafter
      exact ih hafter hwaiting
    · next e c' hne heq =>
      rw [heq] at hafter
      exact hafter

end Cache.Transparent

/-! ## Rounds -/

namespace Call

variable {c c' : Cache} {call : Call}

/-- A call that has looked an identity up has found nothing but what is published under it. -/
def Found (c : Cache) : Call → Prop
  | .query (.entry id) (some answer) =>
    ∃ published, answer = .entry published ∧ ∀ l, published = some l → c.get? id = some l
  | _ => True

theorem Found.mono (h : call.Found c) (hgrows : c.Grows c') : call.Found c' := by
  match call with
  | .request m worker => trivial
  | .query q none => cases q <;> trivial
  | .query (.contains id) (some answer) => trivial
  | .query .size (some answer) => trivial
  | .query (.entry id) (some answer) =>
    obtain ⟨published, heq, hfound⟩ := h
    exact ⟨published, heq, fun l hl => hgrows.keeps (hfound l hl)⟩

theorem Found.step (h : call.Found c) : (call.step c).1.Found (call.step c).2 := by
  match call with
  | .request m worker => trivial
  | .query (.entry id) none => exact ⟨c.get? id, rfl, fun l hl => hl⟩
  | .query (.contains id) none => trivial
  | .query .size none => trivial
  | .query q (some answer) => exact h

end Call

namespace SharedCache

variable {s : SharedCache}

theorem answer?_eq_some_iff {i : ℕ} {answer : Answer} :
    s.answer? i = some answer ↔ (s.calls.map Call.answer?)[i]? = some (some answer) := by
  rw [List.getElem?_map, answer?]
  cases s.calls[i]? <;> simp

/-- A request is answered with the layout that is published for its module, or with the error of the
module's computation. -/
theorem Sound.answer?_request (h : s.Sound) {i : ℕ} {m : Module} {answer : Answer}
    (hoperation : s.operations[i]? = some (.request m)) (hanswer : s.answer? i = some answer) :
    (∃ l, answer = .layout (.ok l) ∧ s.cache.get? m.id = some l) ∨
      ∃ e, answer = .layout (.error e) ∧ m.layout s.cache.options = .error e := by
  obtain ⟨call, hcall, hcalloperation, hcallanswer⟩ := exists_call_of_answer? hoperation hanswer
  have hsound := h call hcall
  match call with
  | .request m' (.answered (.ok l)) =>
    cases hcalloperation
    cases hcallanswer
    exact .inl ⟨l, rfl, hsound⟩
  | .request m' (.answered (.error e)) =>
    cases hcalloperation
    cases hcallanswer
    exact .inr ⟨e, rfl, hsound⟩
  | .query q answer => cases hcalloperation

/-- Throughout a run, what calls have found published is published. -/
theorem found_run_start (c : Cache) (operations : List Operation) (schedule : List ℕ) :
    ∀ call ∈ ((start c operations).run schedule).calls,
      call.Found ((start c operations).run schedule).cache := by
  have hrun : ((start c operations).run schedule).Sound ∧
      ∀ call ∈ ((start c operations).run schedule).calls,
        call.Found ((start c operations).run schedule).cache := by
    refine run_induction (P := fun s => s.Sound ∧ ∀ call ∈ s.calls, call.Found s.cache) ?_
      ⟨sound_start c operations, ?_⟩ schedule
    · rintro s i ⟨hsound, hfound⟩
      refine ⟨hsound.step i, ?_⟩
      have hgrows := hsound.grows_step i
      rcases s.step_eq i with ⟨-, hstep⟩ | ⟨call, hcall, hstep⟩
      · rw [hstep]
        exact hfound
      · rw [hstep] at hgrows ⊢
        intro other hother
        rcases List.mem_or_eq_of_mem_set hother with hmem | rfl
        · exact (hfound other hmem).mono hgrows
        · exact (hfound call (List.mem_of_getElem? hcall)).step
    · -- a call that has not begun has found nothing
      intro call hcall
      obtain ⟨operation, -, rfl⟩ := List.mem_map.1 hcall
      match operation with
      | .request m => trivial
      | .query (.entry id) => trivial
      | .query (.contains id) => trivial
      | .query .size => trivial
  exact hrun.2

end SharedCache

namespace Cache.Transparent

variable {c : Cache} {options : LayoutOptions} {known : List Module}

/-- However the steps of a round are interleaved, and wherever it ends, every request that is answered is
answered as though there were no cache. -/
theorem round (h : c.Transparent options known) (hknown : Consistent options known)
    {operations : List Operation} (hmodules : ∀ m, .request m ∈ operations → m ∈ known)
    (schedule : List ℕ) :
    Reply.Plain options known (.round operations schedule) (c.use (.round operations schedule)).1 ∧
      (c.use (.round operations schedule)).2.Transparent options known := by
  have hstart := SharedCache.sound_start c operations
  have hsound := hstart.run schedule
  have hoptions := ((hstart.grows_run schedule).options_eq).trans h.options_eq
  have hoperations := (SharedCache.operations_run (.start c operations) schedule).trans
    (SharedCache.operations_start c operations)
  have hafter : ((SharedCache.start c operations).run schedule).cache.Transparent options known := by
    refine ⟨hoptions, fun {id l} hget => ?_⟩
    rcases hstart.exists_request_of_get? schedule hget with hold | ⟨m, hmem, hid, hlayout⟩
    · exact h.laidOut hold
    · rw [SharedCache.operations_start] at hmem
      exact ⟨m, hmodules m hmem, hid, h.options_eq ▸ hlayout⟩
  refine ⟨⟨?requests, ?entries⟩, hafter⟩
  case requests =>
    intro i m answer hi hanswer
    have hm := hmodules m (List.mem_of_getElem? hi)
    rw [← hoperations] at hi
    rcases hsound.answer?_request hi (SharedCache.answer?_eq_some_iff.2 hanswer) with
      ⟨l, rfl, hget⟩ | ⟨e, rfl, hlayout⟩
    · rw [hafter.layout_eq_ok hknown hm hget]
    · rw [← hoptions, hlayout]
  case entries =>
    intro i id answer hi hanswer
    rw [← hoperations] at hi
    obtain ⟨call, hcall, hcalloperation, hcallanswer⟩ :=
      SharedCache.exists_call_of_answer? hi (SharedCache.answer?_eq_some_iff.2 hanswer)
    have hfound := SharedCache.found_run_start c operations schedule call hcall
    match call with
    | .request m worker => cases hcalloperation
    | .query q (some answer') =>
      cases hcalloperation
      cases hcallanswer
      obtain ⟨published, heq, hget⟩ := hfound
      exact ⟨published, heq, fun l hl => hafter.laidOut (hget l hl)⟩

/-- Whatever is done with a transparent cache, the reply is the one that there would be without a cache,
and the cache stays transparent. -/
theorem use (h : c.Transparent options known) (hknown : Consistent options known) {u : Use}
    (hmodules : ∀ m ∈ u.modules, m ∈ known) :
    Reply.Plain options known u (c.use u).1 ∧ (c.use u).2.Transparent options known := by
  cases u with
  | request m => exact h.getOrCreate hknown (hmodules m List.mem_cons_self)
  | entry id => exact ⟨fun l hget => h.laidOut hget, h⟩
  | typeLayout m t => exact h.typeLayout hknown (hmodules m List.mem_cons_self) t
  | precompute pieces => exact h.precomputeIn hknown hmodules
  | round operations schedule =>
    refine h.round hknown (fun m hm => hmodules m ?_) schedule
    exact List.mem_filterMap.2 ⟨.request m, hm, rfl⟩

/-- So it goes on over a whole history. -/
theorem useAll (h : c.Transparent options known) (hknown : Consistent options known) {uses : List Use}
    (hmodules : ∀ u ∈ uses, ∀ m ∈ u.modules, m ∈ known) :
    List.Forall₂ (Reply.Plain options known) uses (c.useAll uses).1 := by
  induction uses generalizing c with
  | nil => exact .nil
  | cons u rest ih =>
    obtain ⟨hreply, hafter⟩ := h.use hknown (hmodules u List.mem_cons_self)
    exact .cons hreply (ih hafter fun u' hu' => hmodules u' (List.mem_cons_of_mem u hu'))

end Cache.Transparent

/-! ## Histories -/

/-- If the modules that are ever handed to a cache have one layout for each identity, or fail alike, then
every reply in the history of the cache is the one that there would be without a cache. -/
theorem Cache.plain_useAll_empty {options : LayoutOptions} {uses : List Use}
    (h : Consistent options (uses.flatMap Use.modules)) :
    List.Forall₂ (Reply.Plain options (uses.flatMap Use.modules)) uses
      ((Cache.empty options).useAll uses).1 :=
  (Transparent.empty options _).useAll h fun u hu _ hm => List.mem_flatMap.2 ⟨u, hu, hm⟩

/-- A module with a type and a generic type. -/
def counterModule : Module :=
  .build ⟨7⟩ 8 [
    .type ⟨"App", "Counter"⟩, .genericType ⟨"App", "Pool"⟩ 1,
    .field ⟨1⟩ "count" .static [0x06, 0x08],
    .field ⟨2⟩ "shared" .static [0x06, 0x10]]

/-- The same module with other names. -/
def renamedModule : Module :=
  .build ⟨7⟩ 8 [
    .type ⟨"App", "Tally"⟩, .genericType ⟨"App", "Pool"⟩ 2,
    .field ⟨1⟩ "total" .static [0x06, 0x08]]

/-- A module without a layout. -/
def pointerModule : Module :=
  .build ⟨8⟩ 8 [.type ⟨"App", "Cell"⟩, .field ⟨1⟩ "target" .static [0x06, 0x10]]

/-- A history in which a warm-up fails at once, and names change between requests. -/
def mixedHistory : List Use := [
  .precompute [[pointerModule], [counterModule]],
  .round [.request counterModule, .request renamedModule, .query (.entry ⟨7⟩)] [0, 1, 0, 1, 1, 2, 0],
  .typeLayout renamedModule ⟨2⟩, .typeLayout counterModule ⟨1⟩,
  .request pointerModule, .request renamedModule, .entry ⟨7⟩]

theorem layout_renamedModule : renamedModule.layout ⟨8⟩ = counterModule.layout ⟨8⟩ := by
  decide +kernel

theorem consistent_mixedHistory : Consistent ⟨8⟩ (mixedHistory.flatMap Use.modules) := by
  have hknown : ∀ m ∈ mixedHistory.flatMap Use.modules,
      m = pointerModule ∨ m.id = ⟨7⟩ ∧ m.layout ⟨8⟩ = counterModule.layout ⟨8⟩ := by
    simp [mixedHistory, Use.modules, Operation.module?, layout_renamedModule]
    decide
  intro m hm m' hm' hid
  rcases hknown m hm with rfl | ⟨hm, hlayout⟩ <;> rcases hknown m' hm' with rfl | ⟨hm', hlayout'⟩
  · rfl
  · exact absurd (hid.trans hm') (by decide)
  · exact absurd (hid.symm.trans hm) (by decide)
  · rw [hlayout, hlayout']

theorem Cache.plain_useAll_empty_mixedHistory :
    Consistent ⟨8⟩ (mixedHistory.flatMap Use.modules) ∧
      List.Forall₂ (Reply.Plain ⟨8⟩ (mixedHistory.flatMap Use.modules)) mixedHistory
        ((Cache.empty ⟨8⟩).useAll mixedHistory).1 :=
  ⟨consistent_mixedHistory, plain_useAll_empty consistent_mixedHistory⟩

end StaticStorage
