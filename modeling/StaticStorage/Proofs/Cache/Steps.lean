import Mathlib.Data.Nat.Notation
import StaticStorage.Cache.Shared

/-!
# Steps on a shared cache

What a single step of a call can do to the cache, and what every run therefore keeps. There is one step
only that changes anything: a worker that has computed a layout publishes it for an identity that has
none yet (`Call.step_cache`). All other steps read. So whatever is published stays published
(`Cache.Grows`), and what a call holds or has answered stays true of the cache (`Call.Sound`), however the
steps are interleaved (`Sound.run`). No step waits for another call (`isSome_answer?_run_start`).
-/

namespace StaticStorage

/-! ## Growing caches -/

/-- Whatever is published in `c` is published in `c'` too, under the same options. -/
structure Cache.Grows (c c' : Cache) : Prop where
  options_eq : c'.options = c.options
  keeps : ∀ {id : ModuleId} {l : Layout}, c.get? id = some l → c'.get? id = some l

namespace Cache

theorem Grows.refl (c : Cache) : c.Grows c := ⟨rfl, id⟩

theorem Grows.trans {c₁ c₂ c₃ : Cache} (h : c₁.Grows c₂) (h' : c₂.Grows c₃) : c₁.Grows c₃ :=
  ⟨h'.options_eq.trans h.options_eq, fun hget => h'.keeps (h.keeps hget)⟩

/-- A publication only adds to a cache. -/
theorem grows_publish (c : Cache) (id : ModuleId) (l : Layout) : c.Grows (c.publish id l).2 := by
  cases hfirst : c.get? id with
  | some first =>
    rw [publish_of_get?_eq_some l hfirst]
    exact .refl c
  | none =>
    refine ⟨by rw [publish_of_get?_eq_none l hfirst], fun {k l'} hget => ?_⟩
    have hne : k ≠ id := by
      rintro rfl
      rw [hfirst] at hget
      exact absurd hget (by simp)
    rw [get?_publish, if_neg hne]
    exact hget

end Cache

/-! ## Calls -/

namespace Call

variable {c c' : Cache} {call : Call}

/-- What a call holds is true of the cache: its worker works for the call's own module, a layout that it
has computed is that module's, a layout that it has answered is the published one, and an error that it
has answered is that of the module's computation. -/
def Sound (c : Cache) : Call → Prop
  | .request m (.waiting m') => m' = m
  | .request m (.missed m') => m' = m
  | .request m (.computed id l) => id = m.id ∧ m.layout c.options = .ok l
  | .request m (.answered (.ok l)) => c.get? m.id = some l
  | .request m (.answered (.error e)) => m.layout c.options = .error e
  | .query _ _ => True

/-- A cache that grows falsifies nothing that a call holds. -/
theorem Sound.mono (h : call.Sound c) (hgrows : c.Grows c') : call.Sound c' := by
  match call with
  | .request m (.waiting m') => exact h
  | .request m (.missed m') => exact h
  | .request m (.computed id l) => exact ⟨h.1, hgrows.options_eq ▸ h.2⟩
  | .request m (.answered (.ok l)) => exact hgrows.keeps h
  | .request m (.answered (.error e)) =>
    unfold Sound at h ⊢
    rw [hgrows.options_eq]
    exact h
  | .query q answer => trivial

theorem sound_start (c : Cache) (operation : Operation) : (start operation).Sound c := by
  cases operation with
  | request m => rfl
  | query q => trivial

/-- Everything that a step can do to the cache: nothing, or publish the layout that the call has computed
for its module, which then is the call's answer. -/
theorem step_cache (h : call.Sound c) :
    (call.step c).2 = c ∨
      ∃ m l, m.layout c.options = .ok l ∧ c.get? m.id = none ∧
        call = .request m (.computed m.id l) ∧
        call.step c = (.request m (.answered (.ok l)), (c.publish m.id l).2) := by
  match call with
  | .request m (.waiting m') =>
    left
    simp only [step, Worker.step]
    cases c.get? m'.id <;> rfl
  | .request m (.missed m') =>
    left
    simp only [step, Worker.step]
    cases m'.layout c.options <;> rfl
  | .request m (.computed id l) =>
    obtain ⟨rfl, hlayout⟩ := h
    cases hfirst : c.get? m.id with
    | some first =>
      left
      simp only [step, Worker.step, Cache.publish_of_get?_eq_some l hfirst]
    | none =>
      right
      refine ⟨m, l, hlayout, hfirst, rfl, ?_⟩
      simp only [step, Worker.step, Cache.publish_of_get?_eq_none l hfirst]
  | .request m (.answered answer) => exact .inl rfl
  | .query q none => exact .inl rfl
  | .query q (some answer) => exact .inl rfl

/-- A step only adds to the cache. -/
theorem grows_step (h : call.Sound c) : c.Grows (call.step c).2 := by
  rcases step_cache h with hcache | ⟨m, l, -, -, -, hstep⟩
  · rw [hcache]
    exact .refl c
  · rw [hstep]
    exact c.grows_publish m.id l

/-- What a call holds after its own step is true of the cache after that step. -/
theorem Sound.step (h : call.Sound c) : (call.step c).1.Sound (call.step c).2 := by
  match call with
  | .request m (.waiting m') =>
    obtain rfl : m' = m := h
    simp only [Call.step, Worker.step]
    cases hget : c.get? m'.id with
    | some l => exact hget
    | none => rfl
  | .request m (.missed m') =>
    obtain rfl : m' = m := h
    simp only [Call.step, Worker.step]
    cases hlayout : m'.layout c.options with
    | error e => exact hlayout
    | ok l => exact ⟨rfl, hlayout⟩
  | .request m (.computed id l) =>
    obtain ⟨rfl, -⟩ := h
    have hget := c.get?_publish m.id m.id l
    rw [if_pos rfl] at hget
    exact hget
  | .request m (.answered answer) => exact h
  | .query q none => trivial
  | .query q (some answer) => trivial

/-- A step does not change what the call is for. -/
theorem operation_step (c : Cache) (call : Call) : (call.step c).1.operation = call.operation := by
  match call with
  | .request m worker => rfl
  | .query q none => rfl
  | .query q (some answer) => rfl

/-- An answer is final. -/
theorem answer?_step {answer : Answer} (h : call.answer? = some answer) :
    (call.step c).1.answer? = some answer := by
  match call with
  | .request m (.answered _) => exact h
  | .query q (some _) => exact h

end Call

/-! ## Runs -/

namespace SharedCache

variable {s : SharedCache}

/-- Everything that the calls hold is true of the cache. -/
def Sound (s : SharedCache) : Prop := ∀ call ∈ s.calls, call.Sound s.cache

/-- The operations that the calls are for. -/
def operations (s : SharedCache) : List Operation := s.calls.map Call.operation

/-- A step is the step of one call, or nothing at all when there is no such call. -/
theorem step_eq (s : SharedCache) (i : ℕ) :
    (s.calls[i]? = none ∧ s.step i = s) ∨
      ∃ call, s.calls[i]? = some call ∧
        s.step i = ⟨(call.step s.cache).2, s.calls.set i (call.step s.cache).1⟩ := by
  unfold step
  cases s.calls[i]? with
  | none => exact .inl ⟨rfl, rfl⟩
  | some call => exact .inr ⟨call, rfl, rfl⟩

/-- What every step keeps, every run keeps. -/
theorem run_induction {P : SharedCache → Prop} (hstep : ∀ s i, P s → P (s.step i)) (h : P s)
    (schedule : List ℕ) : P (s.run schedule) := by
  induction schedule generalizing s with
  | nil => exact h
  | cons i schedule ih => exact ih (hstep s i h)

theorem run_append (s : SharedCache) (first second : List ℕ) :
    s.run (first ++ second) = (s.run first).run second :=
  List.foldl_append

theorem sound_start (c : Cache) (operations : List Operation) : (start c operations).Sound := by
  intro call hcall
  obtain ⟨operation, -, rfl⟩ := List.mem_map.1 hcall
  exact Call.sound_start c operation

theorem operations_start (c : Cache) (operations : List Operation) :
    (start c operations).operations = operations := by
  unfold SharedCache.operations start
  rw [List.map_map]
  exact (List.map_congr_left fun operation _ => by cases operation <;> rfl).trans (List.map_id _)

/-- Whatever step is taken, the cache grows or stays as it is. -/
theorem Sound.grows_step (h : s.Sound) (i : ℕ) : s.cache.Grows (s.step i).cache := by
  rcases s.step_eq i with ⟨-, hstep⟩ | ⟨call, hcall, hstep⟩
  · rw [hstep]
    exact .refl s.cache
  · rw [hstep]
    exact Call.grows_step (h call (List.mem_of_getElem? hcall))

/-- Whatever step is taken, what the calls hold stays true of the cache. -/
theorem Sound.step (h : s.Sound) (i : ℕ) : (s.step i).Sound := by
  have hgrows := h.grows_step i
  rcases s.step_eq i with ⟨-, hstep⟩ | ⟨call, hcall, hstep⟩
  · rw [hstep]
    exact h
  · rw [hstep] at hgrows ⊢
    intro other hother
    -- the call that took the step has a new state, and for all others the cache has only grown
    rcases List.mem_or_eq_of_mem_set hother with hmem | rfl
    · exact (h other hmem).mono hgrows
    · exact (h call (List.mem_of_getElem? hcall)).step

theorem Sound.run (h : s.Sound) (schedule : List ℕ) : (s.run schedule).Sound :=
  run_induction (fun _ i hs => hs.step i) h schedule

theorem Sound.grows_run (h : s.Sound) (schedule : List ℕ) :
    s.cache.Grows (s.run schedule).cache := by
  have hrun : (s.run schedule).Sound ∧ s.cache.Grows (s.run schedule).cache :=
    run_induction (P := fun s' => s'.Sound ∧ s.cache.Grows s'.cache)
      (fun _ i hs => ⟨hs.1.step i, hs.2.trans (hs.1.grows_step i)⟩) ⟨h, .refl s.cache⟩ schedule
  exact hrun.2

/-- The calls are for the same operations throughout. -/
theorem operations_step (s : SharedCache) (i : ℕ) : (s.step i).operations = s.operations := by
  rcases s.step_eq i with ⟨-, hstep⟩ | ⟨call, hcall, hstep⟩
  · rw [hstep]
  · rw [hstep]
    unfold operations
    apply List.ext_getElem?
    intro j
    rw [List.getElem?_map, List.getElem?_map]
    by_cases hij : i = j
    · subst hij
      rw [List.getElem?_set_self (List.getElem?_eq_some_iff.1 hcall).1, hcall, Option.map_some,
        Option.map_some, Call.operation_step]
    · rw [List.getElem?_set_ne hij]

theorem operations_run (s : SharedCache) (schedule : List ℕ) :
    (s.run schedule).operations = s.operations :=
  run_induction (P := fun s' => s'.operations = s.operations)
    (fun s' i hs => (s'.operations_step i).trans hs) rfl schedule

/-- An answered operation is that of a call with this answer. -/
theorem exists_call_of_answer? {i : ℕ} {operation : Operation} {answer : Answer}
    (hoperation : s.operations[i]? = some operation) (hanswer : s.answer? i = some answer) :
    ∃ call ∈ s.calls, call.operation = operation ∧ call.answer? = some answer := by
  obtain ⟨call, hcall, hcallanswer⟩ := Option.bind_eq_some_iff.1 hanswer
  rw [operations, List.getElem?_map, hcall] at hoperation
  exact ⟨call, List.mem_of_getElem? hcall, Option.some.inj hoperation, hcallanswer⟩

/-- An answer is final: no step of any call takes it back. -/
theorem answer?_step {i : ℕ} {answer : Answer} (h : s.answer? i = some answer) (j : ℕ) :
    (s.step j).answer? i = some answer := by
  rcases s.step_eq j with ⟨-, hstep⟩ | ⟨call, hcall, hstep⟩
  · rw [hstep]
    exact h
  · rw [hstep]
    unfold answer? at h ⊢
    by_cases hij : j = i
    · subst hij
      rw [hcall] at h
      rw [List.getElem?_set_self (List.getElem?_eq_some_iff.1 hcall).1]
      exact Call.answer?_step h
    · rw [List.getElem?_set_ne hij]
      exact h

theorem answer?_run {i : ℕ} {answer : Answer} (h : s.answer? i = some answer) (schedule : List ℕ) :
    (s.run schedule).answer? i = some answer :=
  run_induction (P := fun s' => s'.answer? i = some answer) (fun _ j hs => answer?_step hs j) h schedule


/-! ## Positions of a schedule -/

/-- The step at a position leads from the state before it to the state before the next one. -/
theorem before_succ (s : SharedCache) {schedule : List ℕ} {n i : ℕ} (h : schedule[n]? = some i) :
    s.before schedule (n + 1) = (s.before schedule n).step i := by
  obtain ⟨hlt, rfl⟩ := List.getElem?_eq_some_iff.1 h
  unfold before
  rw [List.take_succ_eq_append_getElem hlt, run_append]
  rfl

/-- No step stands behind the end of a schedule. -/
theorem before_of_length_le (s : SharedCache) {schedule : List ℕ} {n : ℕ} (h : schedule.length ≤ n) :
    s.before schedule n = s.run schedule := by
  unfold before
  rw [List.take_of_length_le h]

theorem run_drop_before (s : SharedCache) (schedule : List ℕ) (n : ℕ) :
    (s.before schedule n).run (schedule.drop n) = s.run schedule := by
  unfold before
  rw [← run_append, List.take_append_drop]

/-- A later state of a run is reached from an earlier one by a run. -/
theorem exists_run_before (s : SharedCache) (schedule : List ℕ) {k n : ℕ} (h : k ≤ n) :
    ∃ between, s.before schedule n = (s.before schedule k).run between := by
  refine ⟨(schedule.drop k).take (n - k), ?_⟩
  unfold before
  rw [← run_append, ← List.take_add, Nat.add_sub_cancel' h]

end SharedCache

/-! ## Progress -/

namespace Call

/-- The steps that a call may still have to take. -/
def stepsLeft : Call → ℕ
  | .request _ (.waiting _) => 3
  | .request _ (.missed _) => 2
  | .request _ (.computed _ _) => 1
  | .request _ (.answered _) => 0
  | .query _ none => 1
  | .query _ (some _) => 0

theorem stepsLeft_start_le (operation : Operation) : (start operation).stepsLeft ≤ 3 := by
  cases operation with
  | request m => exact Nat.le_refl 3
  | query q => exact Nat.le_add_left 1 2

/-- Every step brings a call closer to its answer, whatever the cache holds. -/
theorem stepsLeft_step_le (c : Cache) (call : Call) :
    (call.step c).1.stepsLeft ≤ call.stepsLeft - 1 := by
  match call with
  | .request m (.waiting m') =>
    simp only [step, Worker.step]
    cases c.get? m'.id with
    | some l => exact Nat.zero_le _
    | none => exact Nat.le_refl 2
  | .request m (.missed m') =>
    simp only [step, Worker.step]
    cases m'.layout c.options with
    | error e => exact Nat.zero_le _
    | ok l => exact Nat.le_refl 1
  | .request m (.computed id l) => exact Nat.zero_le _
  | .request m (.answered answer) => exact Nat.zero_le _
  | .query q none => exact Nat.zero_le _
  | .query q (some answer) => exact Nat.zero_le _

theorem isSome_answer?_of_stepsLeft (call : Call) (h : call.stepsLeft = 0) : call.answer?.isSome := by
  match call with
  | .request m (.answered answer) => rfl
  | .query q (some answer) => rfl

end Call

namespace SharedCache

/-- A call comes closer to its answer with every step of its own, and other calls do not throw it back. -/
theorem exists_stepsLeft_run {s : SharedCache} {i : ℕ} {call : Call} (h : s.calls[i]? = some call)
    (schedule : List ℕ) :
    ∃ call', (s.run schedule).calls[i]? = some call' ∧
      call'.stepsLeft ≤ call.stepsLeft - schedule.count i := by
  induction schedule generalizing s call with
  | nil => exact ⟨call, h, Nat.le_refl _⟩
  | cons j schedule ih =>
    rcases s.step_eq j with ⟨hnone, hstep⟩ | ⟨moved, hmoved, hstep⟩
    · have hne : j ≠ i := by
        rintro rfl
        rw [h] at hnone
        exact absurd hnone (by simp)
      rw [List.count_cons_of_ne hne]
      exact ih (by rw [hstep, h])
    · by_cases hij : j = i
      · subst hij
        obtain rfl : call = moved := Option.some.inj (h.symm.trans hmoved)
        have hcall : (s.step j).calls[j]? = some (call.step s.cache).1 := by
          rw [hstep, List.getElem?_set_self (List.getElem?_eq_some_iff.1 h).1]
        obtain ⟨call', hcall', hle⟩ := ih hcall
        -- this step brought the call closer, and the rest of the run does what is left
        have hstepsLeft := call.stepsLeft_step_le s.cache
        refine ⟨call', hcall', ?_⟩
        rw [List.count_cons_self]
        omega
      · rw [List.count_cons_of_ne hij]
        exact ih (by rw [hstep, List.getElem?_set_ne hij, h])

/-- No call waits for another: three steps of its own answer it. -/
theorem isSome_answer?_run_start (c : Cache) {operations : List Operation} {i : ℕ}
    (hi : i < operations.length) {schedule : List ℕ} (hcount : 3 ≤ schedule.count i) :
    (((start c operations).run schedule).answer? i).isSome := by
  have hcall : (start c operations).calls[i]? = some (Call.start operations[i]) := by
    rw [start, List.getElem?_map, List.getElem?_eq_getElem hi]
    rfl
  obtain ⟨call, hrun, hle⟩ := exists_stepsLeft_run hcall schedule
  have hstart := Call.stepsLeft_start_le operations[i]
  have hanswer := call.isSome_answer?_of_stepsLeft (by omega)
  rw [answer?, hrun]
  exact hanswer

end SharedCache

end StaticStorage
