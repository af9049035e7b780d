import StaticStorage.Proofs.Cache.Settled

/-!
# Serial order

Calls on a shared cache are interleaved step by step, and yet every run could have been a serial one. Only
a step that settles its call changes the cache, and at that step the whole operation could have been
carried out without a pause. So the calls, in the order in which they take effect, replay the run.

A request that fails therefore comes before the publication of another layout for its module, even if it
reports its failure later, and one that loses the race comes after it.

* `Sound.perform_of_takesEffect` — the step at which a call takes effect could have been all of it.
* `Sound.performAll_effects` — carried out one by one in the order of these steps, the operations replay
  the run.
* `SerialOrder` — what it means that a run could have been serial.
-/

namespace StaticStorage

/-- One operation more is carried out at the end. -/
theorem Cache.performAll_concat (c : Cache) (operations : List Operation) (operation : Operation) :
    c.performAll (operations ++ [operation]) =
      ((c.performAll operations).1 ++ [(operation.perform (c.performAll operations).2).1],
        (operation.perform (c.performAll operations).2).2) := by
  induction operations generalizing c with
  | nil => rfl
  | cons first operations ih =>
    simp only [List.cons_append, performAll]
    rw [ih]

namespace SharedCache

variable {s : SharedCache} {schedule : List ℕ}

/-! ## Steps that take effect -/

/-- Does the call whose turn it is at a position take effect there? It does if the step settles the call,
and the schedule is long enough for the call to answer. -/
def takesEffect (s : SharedCache) (schedule : List ℕ) (n : ℕ) : Bool :=
  match schedule[n]? with
  | some i =>
    ((s.before schedule n).settled? i).isNone && ((s.before schedule (n + 1)).settled? i).isSome &&
      ((s.run schedule).answer? i).isSome
  | none => false

/-- The positions before the given one at which a call takes effect. -/
def effects (s : SharedCache) (schedule : List ℕ) (n : ℕ) : List ℕ :=
  (List.range n).filter (s.takesEffect schedule)

/-- The calls whose turns are at the given positions. -/
def turns (schedule points : List ℕ) : List ℕ := points.filterMap (schedule[·]?)

theorem takesEffect_iff {n : ℕ} :
    s.takesEffect schedule n = true ↔
      ∃ i, schedule[n]? = some i ∧ (s.before schedule n).settled? i = none ∧
        ((s.before schedule (n + 1)).settled? i).isSome ∧ ((s.run schedule).answer? i).isSome := by
  unfold takesEffect
  cases schedule[n]? with
  | none => simp
  | some i => simp [and_assoc]

theorem mem_effects {n k : ℕ} :
    k ∈ s.effects schedule n ↔ k < n ∧ s.takesEffect schedule k = true := by
  rw [effects, List.mem_filter, List.mem_range]

theorem mem_turns {points : List ℕ} {i : ℕ} :
    i ∈ turns schedule points ↔ ∃ n ∈ points, schedule[n]? = some i :=
  List.mem_filterMap

/-- A call that takes effect at a position could have been carried out there without a pause: the cache
that the step leaves and the answer that the call will give are those of its operation. -/
theorem Sound.perform_of_takesEffect (h : s.Sound) {n : ℕ} (heffect : s.takesEffect schedule n = true) :
    ∃ i operation answer, schedule[n]? = some i ∧ s.operations[i]? = some operation ∧
      (s.before schedule n).answer? i = none ∧
      operation.perform (s.before schedule n).cache = (answer, (s.before schedule (n + 1)).cache) ∧
      (s.run schedule).answer? i = some answer := by
  obtain ⟨i, hi, hnone, hsome, hanswered⟩ := takesEffect_iff.1 heffect
  have hsound : (s.before schedule n).Sound := h.run _
  have hstep := s.before_succ hi
  rw [hstep] at hsome ⊢
  rcases hsound.step_of_settled?_eq_none hnone with
    ⟨-, hnone'⟩ | ⟨operation, answer, hop, hsettled, hperform⟩
  · exact absurd hsome (by simp [hnone'])
  · refine ⟨i, operation, answer, hi, ?_, answer?_of_settled?_eq_none hnone, hperform, ?_⟩
    · rw [← hop]
      exact congrArg (·[i]?) (s.operations_run _).symm
    · -- the call is settled for good, so that its answer at the end is the one it was settled with
      obtain ⟨final, hfinal⟩ := Option.isSome_iff_exists.1 hanswered
      have hend := (hsound.step i).settled?_run hsettled (schedule.drop (n + 1))
      rw [← hstep, run_drop_before, settled?_of_answer? hfinal] at hend
      rw [hfinal, hend]

/-- Where no call takes effect, the cache stays as it is. -/
theorem Sound.cache_before_succ (h : s.Sound) {n : ℕ} (heffect : s.takesEffect schedule n = false) :
    (s.before schedule (n + 1)).cache = (s.before schedule n).cache := by
  cases hi : schedule[n]? with
  | none =>
    have hle := List.getElem?_eq_none_iff.1 hi
    rw [before_of_length_le s hle, before_of_length_le s (Nat.le_succ_of_le hle)]
  | some i =>
    have hsound : (s.before schedule n).Sound := h.run _
    have hstep := s.before_succ hi
    rw [hstep]
    cases hsettled : (s.before schedule n).settled? i with
    | some answer => exact (step_of_settled? hsettled).1
    | none =>
      rcases hsound.step_of_settled?_eq_none hsettled with ⟨hcache, -⟩ | ⟨-, answer, -, hsettled', -⟩
      · exact hcache
      · -- a call that is settled here and yet takes no effect is not answered in this run
        rcases hsound.cache_step i with hcache | hanswer
        · exact hcache
        · obtain ⟨answer, hanswer⟩ := Option.isSome_iff_exists.1 hanswer
          have hend := answer?_run hanswer (schedule.drop (n + 1))
          rw [← hstep, run_drop_before] at hend
          have htrue : s.takesEffect schedule n = true :=
            takesEffect_iff.2 ⟨i, hi, hsettled, by simp [hstep, hsettled'], by simp [hend]⟩
          exact absurd htrue (by simp [heffect])

/-! ## The calls in the order of their effects -/

/-- No call takes effect twice. -/
theorem Sound.nodup_turns_effects (h : s.Sound) (schedule : List ℕ) (n : ℕ) :
    (turns schedule (s.effects schedule n)).Nodup := by
  apply List.pairwise_filterMap.2
  apply (List.pairwise_lt_range.filter _).imp_of_mem
  intro k k' hk hk' hlt i hi i' hi' heq
  obtain ⟨-, hk⟩ := List.mem_filter.1 hk
  obtain ⟨-, hk'⟩ := List.mem_filter.1 hk'
  obtain ⟨j, hj, -, hsome, -⟩ := takesEffect_iff.1 hk
  obtain ⟨j', hj', hnone, -⟩ := takesEffect_iff.1 hk'
  obtain rfl : i = j := Option.some.inj (hi.symm.trans hj)
  obtain rfl : i' = j' := Option.some.inj (hi'.symm.trans hj')
  subst heq
  -- a call that took effect at `k` is settled ever after, and so does not take effect at `k'`
  obtain ⟨answer, hsettled⟩ := Option.isSome_iff_exists.1 hsome
  obtain ⟨between, hbetween⟩ := s.exists_run_before schedule (Nat.succ_le_of_lt hlt)
  have hsound : (s.before schedule (k + 1)).Sound := h.run _
  have hstill := hsound.settled?_run hsettled between
  rw [← hbetween, hnone] at hstill
  exact absurd hstill (by simp)

/-- A call that is answered in the end has taken effect by the time it is settled. -/
theorem Sound.exists_takesEffect (h : s.Sound) {i : ℕ} (hstart : s.settled? i = none)
    (hanswer : ((s.run schedule).answer? i).isSome) {n : ℕ}
    (hsettled : ((s.before schedule n).settled? i).isSome) :
    ∃ k < n, schedule[k]? = some i ∧ s.takesEffect schedule k = true := by
  induction n with
  | zero =>
    have hzero : s.before schedule 0 = s := rfl
    rw [hzero, hstart] at hsettled
    exact absurd hsettled (by simp)
  | succ n ih =>
    cases hbefore : (s.before schedule n).settled? i with
    | some answer =>
      obtain ⟨k, hk, hi, heffect⟩ := ih (by rw [hbefore]; rfl)
      exact ⟨k, Nat.lt_succ_of_lt hk, hi, heffect⟩
    | none =>
      have hsound : (s.before schedule n).Sound := h.run _
      cases hj : schedule[n]? with
      | none =>
        have hle := List.getElem?_eq_none_iff.1 hj
        rw [before_of_length_le s (Nat.le_succ_of_le hle), ← before_of_length_le s hle,
          hbefore] at hsettled
        exact absurd hsettled (by simp)
      | some j =>
        -- no other call settles this one, so that the step is its own
        by_cases hij : j = i
        · subst hij
          exact ⟨n, Nat.lt_succ_self n, hj, takesEffect_iff.2 ⟨j, hj, hbefore, hsettled, hanswer⟩⟩
        · rw [s.before_succ hj, hsound.settled?_step_of_ne hij, hbefore] at hsettled
          exact absurd hsettled (by simp)

/-- Carried out without pauses, in the order in which they take effect, the operations give the answers of
the run and leave the cache of the run. -/
theorem Sound.performAll_effects (h : s.Sound) (schedule : List ℕ) (n : ℕ) :
    s.cache.performAll ((turns schedule (s.effects schedule n)).filterMap (s.operations[·]?)) =
      ((turns schedule (s.effects schedule n)).filterMap (s.run schedule).answer?,
        (s.before schedule n).cache) := by
  induction n with
  | zero => rfl
  | succ n ih =>
    unfold effects turns at ih ⊢
    rw [List.range_succ, List.filter_append]
    cases heffect : s.takesEffect schedule n with
    | false =>
      rw [List.filter_cons_of_neg (by rw [heffect]; exact Bool.false_ne_true), List.filter_nil,
        List.append_nil, ih, h.cache_before_succ heffect]
    | true =>
      obtain ⟨i, operation, answer, hi, hoperation, -, hperform, hanswer⟩ :=
        h.perform_of_takesEffect heffect
      rw [List.filter_cons_of_pos heffect, List.filter_nil, List.filterMap_append,
        List.filterMap_append, List.filterMap_append, List.filterMap_cons_some hi, List.filterMap_nil,
        List.filterMap_cons_some hoperation, List.filterMap_cons_some hanswer, List.filterMap_nil,
        List.filterMap_nil, Cache.performAll_concat, ih, hperform]

/-! ## Serial runs -/

/-- The run of a schedule could have been serial: every call that is answered takes effect as a whole at
one of its own steps, nothing happens to the cache at any other step, and the calls carried out one after
the other, in the order of these points, have the same answers and leave the same cache. -/
structure SerialOrder (s : SharedCache) (schedule points : List ℕ) : Prop where
  ascending : points.Pairwise (· < ·)
  effect : ∀ n ∈ points, ∃ i operation answer, schedule[n]? = some i ∧
    s.operations[i]? = some operation ∧ (s.before schedule n).answer? i = none ∧
    operation.perform (s.before schedule n).cache = (answer, (s.before schedule (n + 1)).cache) ∧
    (s.run schedule).answer? i = some answer
  quiet : ∀ n, n ∉ points → (s.before schedule (n + 1)).cache = (s.before schedule n).cache
  once : (turns schedule points).Nodup
  answered : ∀ i, i ∈ turns schedule points ↔ ((s.run schedule).answer? i).isSome
  replay : s.cache.performAll ((turns schedule points).filterMap (s.operations[·]?)) =
    ((turns schedule points).filterMap (s.run schedule).answer?, (s.run schedule).cache)

/-- Does the step at a position publish a layout for the identity? -/
def PublishesAt (s : SharedCache) (schedule : List ℕ) (n : ℕ) (id : ModuleId) : Prop :=
  (s.before schedule n).cache.contains id = false ∧
    (s.before schedule (n + 1)).cache.contains id = true

/-- Calls that are not settled yet take effect one by one. -/
theorem Sound.serialOrder_effects (h : s.Sound) (hstart : ∀ i, s.settled? i = none)
    (schedule : List ℕ) : s.SerialOrder schedule (s.effects schedule schedule.length) where
  ascending := List.pairwise_lt_range.filter _
  effect n hn := h.perform_of_takesEffect (mem_effects.1 hn).2
  quiet n hn := by
    apply h.cache_before_succ
    apply Bool.eq_false_iff.2
    intro heffect
    obtain ⟨i, hi, -⟩ := takesEffect_iff.1 heffect
    exact hn (mem_effects.2 ⟨(List.getElem?_eq_some_iff.1 hi).1, heffect⟩)
  once := h.nodup_turns_effects schedule schedule.length
  answered i := by
    constructor
    · intro hi
      obtain ⟨n, hn, hi⟩ := mem_turns.1 hi
      obtain ⟨j, hj, -, -, hanswer⟩ := takesEffect_iff.1 (mem_effects.1 hn).2
      obtain rfl : i = j := Option.some.inj (hi.symm.trans hj)
      exact hanswer
    · intro hanswer
      have hsettled : ((s.before schedule schedule.length).settled? i).isSome := by
        obtain ⟨answer, hanswer'⟩ := Option.isSome_iff_exists.1 hanswer
        rw [before_of_length_le s (Nat.le_refl _), settled?_of_answer? hanswer']
        rfl
      obtain ⟨k, hk, hi, heffect⟩ := h.exists_takesEffect (hstart i) hanswer hsettled
      exact mem_turns.2 ⟨k, mem_effects.2 ⟨hk, heffect⟩, hi⟩
  replay := by
    rw [h.performAll_effects, before_of_length_le s (Nat.le_refl _)]

namespace SerialOrder

variable {points : List ℕ} {n k i : ℕ} {m : Module}

/-- A publication is the effect of a call. -/
theorem mem_of_publishesAt (h : s.SerialOrder schedule points) {id : ModuleId}
    (hpublishes : s.PublishesAt schedule n id) : n ∈ points := by
  by_cases hn : n ∈ points
  · exact hn
  · obtain ⟨hbefore, hafter⟩ := hpublishes
    rw [h.quiet n hn, hbefore] at hafter
    exact absurd hafter (by simp)

/-- What a request does at its point, given the answer that it gets in the end. -/
theorem getOrCreate_at (h : s.SerialOrder schedule points) (hk : k ∈ points)
    (hi : schedule[k]? = some i) (hoperation : s.operations[i]? = some (.request m))
    {answer : Except LayoutError Layout}
    (hanswer : (s.run schedule).answer? i = some (.layout answer)) :
    (s.before schedule k).cache.getOrCreate m = (answer, (s.before schedule (k + 1)).cache) := by
  obtain ⟨j, operation, answer', hj, hoperation', -, hperform, hanswer'⟩ := h.effect k hk
  obtain rfl : i = j := Option.some.inj (hi.symm.trans hj)
  obtain rfl : Operation.request m = operation := Option.some.inj (hoperation.symm.trans hoperation')
  obtain rfl : Answer.layout answer = answer' := Option.some.inj (hanswer.symm.trans hanswer')
  unfold Operation.perform at hperform
  rw [Prod.mk.injEq, Answer.layout.injEq] at hperform
  exact Prod.ext hperform.1 hperform.2

/-- A request that fails comes before every publication for its module. -/
theorem lt_of_answer?_eq_error (h : s.SerialOrder schedule points) (hsound : s.Sound)
    (hpublishes : s.PublishesAt schedule n m.id) (hk : k ∈ points) (hi : schedule[k]? = some i)
    (hoperation : s.operations[i]? = some (.request m)) {e : LayoutError}
    (hanswer : (s.run schedule).answer? i = some (.layout (.error e))) : k < n := by
  apply Nat.lt_of_not_le
  intro hle
  obtain ⟨hnone, -, hcache⟩ :=
    Cache.getOrCreate_eq_error (h.getOrCreate_at hk hi hoperation hanswer)
  -- what is published at `n` would still be there after the look-up
  obtain ⟨between, hbetween⟩ := s.exists_run_before schedule (Nat.succ_le_succ hle)
  have hgrows := (hsound.run (schedule.take (n + 1))).grows_run between
  obtain ⟨l, hget⟩ := Option.isSome_iff_exists.1 hpublishes.2
  have hkeeps := hgrows.keeps hget
  rw [← before, ← hbetween, hcache, hnone] at hkeeps
  exact absurd hkeeps (by simp)

/-- A request that is answered with a layout does not come before the publication for its module. -/
theorem le_of_answer?_eq_ok (h : s.SerialOrder schedule points) (hsound : s.Sound)
    (hpublishes : s.PublishesAt schedule n m.id) (hk : k ∈ points) (hi : schedule[k]? = some i)
    (hoperation : s.operations[i]? = some (.request m)) {l : Layout}
    (hanswer : (s.run schedule).answer? i = some (.layout (.ok l))) : n ≤ k := by
  apply Nat.le_of_not_lt
  intro hlt
  -- what the request leaves published would be there already before the step at `n`
  have hget := Cache.get?_of_getOrCreate_eq_ok (h.getOrCreate_at hk hi hoperation hanswer)
  obtain ⟨between, hbetween⟩ := s.exists_run_before schedule (Nat.succ_le_of_lt hlt)
  have hgrows := (hsound.run (schedule.take (k + 1))).grows_run between
  have hkeeps := hgrows.keeps hget
  rw [← before, ← hbetween] at hkeeps
  have hcontains : (s.before schedule n).cache.contains m.id = true :=
    Option.isSome_iff_exists.2 ⟨l, hkeeps⟩
  exact absurd hcontains (by simp [hpublishes.1])

end SerialOrder

/-- However the calls on a cache are interleaved, and whatever the cache holds at first, the run could have
been serial. In that serial run, for every publication of a layout, the failed requests for the same
identity come before it and the answered ones do not. No call waits for another: any three steps of its own
answer it. -/
theorem exists_serialOrder (c : Cache) (operations : List Operation) (schedule : List ℕ) :
    ∃ points, (start c operations).SerialOrder schedule points ∧
      (∀ n id, (start c operations).PublishesAt schedule n id → n ∈ points ∧
        ∀ k ∈ points, ∀ i m, schedule[k]? = some i → operations[i]? = some (.request m) → m.id = id →
          (∀ e, ((start c operations).run schedule).answer? i = some (.layout (.error e)) → k < n) ∧
          (∀ l, ((start c operations).run schedule).answer? i = some (.layout (.ok l)) → n ≤ k)) ∧
      ∀ i < operations.length, 3 ≤ schedule.count i →
        (((start c operations).run schedule).answer? i).isSome := by
  have hsound := sound_start c operations
  have hserial := hsound.serialOrder_effects (settled?_start c operations) schedule
  refine ⟨_, hserial, ?_, ?_⟩
  · intro n id hpublishes
    refine ⟨hserial.mem_of_publishesAt hpublishes, ?_⟩
    rintro k hk i m hi hoperation rfl
    rw [← operations_start c operations] at hoperation
    constructor
    · intro e hanswer
      exact hserial.lt_of_answer?_eq_error hsound hpublishes hk hi hoperation hanswer
    · intro l hanswer
      exact hserial.le_of_answer?_eq_ok hsound hpublishes hk hi hoperation hanswer
  · intro i hi hcount
    exact isSome_answer?_run_start c hi hcount

end SharedCache

end StaticStorage
