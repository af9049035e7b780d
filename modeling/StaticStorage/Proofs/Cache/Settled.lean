import StaticStorage.Proofs.Cache.Steps

/-!
# Settled calls

A call on a shared cache is *settled* by one of its own steps: from there on its answer is fixed, whatever
other calls do. At that step the whole operation could have been carried out without a pause, with the
same answer and the same effect on the cache.

Which step it is depends on the outcome. A request that finds its module published, or whose computation
fails, is settled by the look-up, though the failure shows only later. A request that computes a layout is
settled by its publication, won or lost.

* `Call.step_of_settled?_eq_none` — a call is settled by a step that could have been its whole operation.
* `SharedCache.Sound.settled?_run` — a settled call stays settled in every run.
-/

namespace StaticStorage

namespace Call

variable {c : Cache} {call : Call}

/-- The answer that a call will give whatever else happens: the one that it has given, or the error of
the computation that it is about to make. -/
def settled? (options : LayoutOptions) : Call → Option Answer
  | .request _ (.answered answer) => some (.layout answer)
  | .request _ (.missed m) =>
    match m.layout options with
    | .error e => some (.layout (.error e))
    | .ok _ => none
  | .request _ _ => none
  | .query _ answer => answer

theorem settled?_of_answer? (options : LayoutOptions) {answer : Answer}
    (h : call.answer? = some answer) : call.settled? options = some answer := by
  match call with
  | .request m (.answered _) => exact h
  | .query q _ => exact h

/-- A settled call changes nothing any more. -/
theorem step_of_settled? {answer : Answer} (h : call.settled? c.options = some answer) :
    (call.step c).2 = c ∧ (call.step c).1.settled? c.options = some answer := by
  match call with
  | .request m (.missed m') =>
    cases hlayout : m'.layout c.options with
    | error e =>
      simp only [settled?, hlayout] at h
      simp only [step, Worker.step, hlayout]
      exact ⟨trivial, h⟩
    | ok l => simp [settled?, hlayout] at h
  | .request m (.answered answer) => exact ⟨rfl, h⟩
  | .query q (some answer) => exact ⟨rfl, h⟩

/-- A call is settled by a step at which its whole operation could be carried out without a pause, and
with the same result. All other steps of a call that is not settled leave the cache alone. -/
theorem step_of_settled?_eq_none (hsound : call.Sound c) (h : call.settled? c.options = none) :
    ((call.step c).2 = c ∧ (call.step c).1.settled? c.options = none) ∨
      ∃ answer, (call.step c).1.settled? c.options = some answer ∧
        call.operation.perform c = (answer, (call.step c).2) := by
  match call with
  | .request m (.waiting m') =>
    obtain rfl : m' = m := hsound
    cases hget : c.get? m'.id with
    | some l =>
      right
      refine ⟨.layout (.ok l), ?_, ?_⟩ <;>
        simp only [step, Worker.step, operation, Operation.perform, Cache.getOrCreate, hget, settled?]
    | none =>
      -- the computation is yet to come, but whether it fails is settled by the module
      cases hlayout : m'.layout c.options with
      | error e =>
        right
        refine ⟨.layout (.error e), ?_, ?_⟩ <;>
          simp only [step, Worker.step, operation, Operation.perform, Cache.getOrCreate, Cache.fill,
            hget, hlayout, settled?]
      | ok l =>
        left
        simp only [step, Worker.step, hget, hlayout, settled?, and_self]
  | .request m (.missed m') =>
    cases hlayout : m'.layout c.options with
    | error e => simp [settled?, hlayout] at h
    | ok l =>
      left
      simp only [step, Worker.step, hlayout, settled?, and_self]
  | .request m (.computed id l) =>
    obtain ⟨rfl, hlayout⟩ := hsound
    -- won or lost, a request made now would find the same layout published
    right
    refine ⟨.layout (.ok (c.publish m.id l).1), rfl, ?_⟩
    cases hget : c.get? m.id with
    | some first =>
      simp only [step, Worker.step, operation, Operation.perform, Cache.getOrCreate, hget,
        Cache.publish_of_get?_eq_some l hget]
    | none =>
      simp only [step, Worker.step, operation, Operation.perform, Cache.getOrCreate, Cache.fill, hget,
        hlayout]
  | .query q none => exact .inr ⟨q.answer c, rfl, rfl⟩

end Call

/-! ## Settled calls of a shared cache -/

namespace SharedCache

variable {s : SharedCache}

/-- The answer that a call will give whatever else happens, once it is settled. -/
def settled? (s : SharedCache) (i : ℕ) : Option Answer :=
  s.calls[i]?.bind (Call.settled? s.cache.options)

theorem settled?_of_answer? {i : ℕ} {answer : Answer} (h : s.answer? i = some answer) :
    s.settled? i = some answer := by
  obtain ⟨call, hcall, hanswer⟩ := Option.bind_eq_some_iff.1 h
  exact Option.bind_eq_some_iff.2 ⟨call, hcall, Call.settled?_of_answer? _ hanswer⟩

theorem answer?_of_settled?_eq_none {i : ℕ} (h : s.settled? i = none) : s.answer? i = none := by
  apply Option.eq_none_iff_forall_ne_some.2
  intro answer hanswer
  rw [settled?_of_answer? hanswer] at h
  exact absurd h (by simp)

theorem settled?_start (c : Cache) (operations : List Operation) (i : ℕ) :
    (start c operations).settled? i = none := by
  unfold settled? start
  rw [List.getElem?_map]
  cases operations[i]? with
  | none => rfl
  | some operation => cases operation <;> rfl

/-- A step of one call settles no other. -/
theorem Sound.settled?_step_of_ne (h : s.Sound) {i j : ℕ} (hij : i ≠ j) :
    (s.step i).settled? j = s.settled? j := by
  have hoptions := (h.grows_step i).options_eq
  unfold settled?
  rw [hoptions]
  rcases s.step_eq i with ⟨-, hstep⟩ | ⟨call, hcall, hstep⟩
  · rw [hstep]
  · rw [hstep, List.getElem?_set_ne hij]

/-- A step of a settled call changes nothing. -/
theorem step_of_settled? {i : ℕ} {answer : Answer} (h : s.settled? i = some answer) :
    (s.step i).cache = s.cache ∧ (s.step i).settled? i = some answer := by
  obtain ⟨call, hcall, hsettled⟩ := Option.bind_eq_some_iff.1 h
  obtain ⟨hcache, hsettled'⟩ := Call.step_of_settled? hsettled
  have hstep : s.step i = ⟨(call.step s.cache).2, s.calls.set i (call.step s.cache).1⟩ := by
    unfold step
    rw [hcall]
  unfold settled?
  rw [hstep, List.getElem?_set_self (List.getElem?_eq_some_iff.1 hcall).1, hcache]
  exact ⟨rfl, hsettled'⟩

/-- A call is settled by a step at which its operation could be carried out without a pause. -/
theorem Sound.step_of_settled?_eq_none (hsound : s.Sound) {i : ℕ} (h : s.settled? i = none) :
    ((s.step i).cache = s.cache ∧ (s.step i).settled? i = none) ∨
      ∃ operation answer, s.operations[i]? = some operation ∧
        (s.step i).settled? i = some answer ∧
        operation.perform s.cache = (answer, (s.step i).cache) := by
  rcases s.step_eq i with ⟨-, hstep⟩ | ⟨call, hcall, hstep⟩
  · left
    rw [hstep]
    exact ⟨rfl, h⟩
  · have hcallsound := hsound call (List.mem_of_getElem? hcall)
    have hnone : call.settled? s.cache.options = none := by
      unfold settled? at h
      rwa [hcall] at h
    have hsettled : (s.step i).settled? i = (call.step s.cache).1.settled? s.cache.options := by
      unfold settled?
      rw [(hsound.grows_step i).options_eq, hstep,
        List.getElem?_set_self (List.getElem?_eq_some_iff.1 hcall).1]
      rfl
    rw [hsettled, hstep]
    refine (Call.step_of_settled?_eq_none hcallsound hnone).imp id ?_
    rintro ⟨answer, hanswer, hperform⟩
    refine ⟨call.operation, answer, ?_, hanswer, hperform⟩
    rw [operations, List.getElem?_map, hcall]
    rfl

/-- A settled call stays settled. -/
theorem Sound.settled?_step (h : s.Sound) {i : ℕ} {answer : Answer}
    (hsettled : s.settled? i = some answer) (j : ℕ) : (s.step j).settled? i = some answer := by
  by_cases hij : j = i
  · subst hij
    exact (step_of_settled? hsettled).2
  · rw [h.settled?_step_of_ne hij]
    exact hsettled

theorem Sound.settled?_run (h : s.Sound) {i : ℕ} {answer : Answer}
    (hsettled : s.settled? i = some answer) (schedule : List ℕ) :
    (s.run schedule).settled? i = some answer := by
  have hrun : (s.run schedule).Sound ∧ (s.run schedule).settled? i = some answer :=
    run_induction (P := fun s' => s'.Sound ∧ s'.settled? i = some answer)
      (fun _ j hs => ⟨hs.1.step j, hs.1.settled?_step hs.2 j⟩) ⟨h, hsettled⟩ schedule
  exact hrun.2

/-- A step that changes the cache answers its call. -/
theorem Sound.cache_step (h : s.Sound) (i : ℕ) :
    (s.step i).cache = s.cache ∨ ((s.step i).answer? i).isSome := by
  rcases s.step_eq i with ⟨-, hstep⟩ | ⟨call, hcall, hstep⟩
  · rw [hstep]
    exact .inl rfl
  · rcases Call.step_cache (h call (List.mem_of_getElem? hcall)) with hcache | ⟨m, l, -, -, -, heq⟩
    · rw [hstep]
      exact .inl hcache
    · right
      unfold answer?
      rw [hstep, List.getElem?_set_self (List.getElem?_eq_some_iff.1 hcall).1, heq]
      rfl

end SharedCache

end StaticStorage
