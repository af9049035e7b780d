import Mathlib.Data.List.Basic
import StaticStorage.Module.Declaration
import StaticStorage.Proofs.Cache.Steps

/-!
# Warm-ups and failures

A request that fails leaves a cache as it was, and fails again until somebody else publishes a layout for the
identity. In requests one after the other, up to the first that fails, it can be told from the list which one
this is: the module has no layout, none was published for its identity at first, and no module in front of it has
one to publish. A module that is served by the cache is not even looked at, be it valid or not.

A warm-up is answered as these requests are, however it is divided. It also leaves the same published, unless the
failure is an overflow: then pieces behind that of the failure are warmed up as well. A worker that is alone goes
on with the second half of a batch when its first half overflows.

* `getOrCreate_eq_error_iff` — when a request fails.
* `Serves.cons` — what is published after one request more.
* `requestAll_cases` — everything that requests in turn can come to.
* `precomputeIn_cases` — everything that a divided batch can come to.
* `failsCleanly` — what callers may rely on when something fails.
-/

namespace StaticStorage

namespace Cache

variable {c c' after : Cache} {m : Module} {front modules rest : List Module} {pieces : List (List Module)}
  {outcome : Except LayoutError Unit × Cache} {l : Layout} {e : LayoutError} {n : ℕ}

/-! ## Requests -/

/-- A request for a published layout is answered with it, whatever the module holds. -/
theorem getOrCreate_of_get?_eq_some (h : c.get? m.id = some l) : c.getOrCreate m = (.ok l, c) := by
  rw [getOrCreate, h]

/-- A request fails when nothing is published for a module without a layout, and then changes nothing. -/
theorem getOrCreate_eq_error_iff :
    c.getOrCreate m = (.error e, c') ↔ c.get? m.id = none ∧ m.layout c.options = .error e ∧ c' = c := by
  constructor
  · exact getOrCreate_eq_error
  · rintro ⟨hget, hlayout, rfl⟩
    rw [getOrCreate, hget]
    dsimp only
    rw [fill, hlayout]

/-- The layout of one type is refused where the layout of its module is. -/
theorem typeLayout_eq_error_iff {t : TypeId} :
    c.typeLayout m t = (.error e, c') ↔
      m.isGeneric t = false ∧ c.getOrCreate m = (.error e, c') := by
  unfold typeLayout
  cases m.isGeneric t with
  | true => simp
  | false =>
    generalize c.getOrCreate m = outcome
    obtain ⟨e' | l, after⟩ := outcome <;> simp [Except.map]

/-- A request only adds to a cache. -/
theorem grows_of_getOrCreate_eq {answer : Except LayoutError Layout}
    (h : c.getOrCreate m = (answer, c')) : c.Grows c' := by
  obtain rfl : (c.getOrCreate m).2 = c' := congrArg Prod.snd h
  rcases c.getOrCreate_cases m with ⟨l, -, heq⟩ | ⟨e, -, -, heq⟩ | ⟨l, -, -, heq⟩ <;> rw [heq]
  · exact .refl c
  · exact .refl c
  · exact c.grows_publish m.id l

/-- A request leaves alone what is published for other identities. -/
theorem get?_of_getOrCreate_eq {answer : Except LayoutError Layout}
    (h : c.getOrCreate m = (answer, c')) {id : ModuleId} (hid : id ≠ m.id) : c'.get? id = c.get? id := by
  obtain rfl : (c.getOrCreate m).2 = c' := congrArg Prod.snd h
  rcases c.getOrCreate_cases m with ⟨l, -, heq⟩ | ⟨e, -, -, heq⟩ | ⟨l, -, -, heq⟩ <;> rw [heq]
  rw [get?_publish, if_neg hid]

/-- A request is answered with what was published before, or with the layout of its module. -/
theorem eq_of_getOrCreate_eq_ok (h : c.getOrCreate m = (.ok l, c')) :
    c.get? m.id = some l ∨ c.get? m.id = none ∧ m.layout c.options = .ok l := by
  rcases c.getOrCreate_cases m with ⟨l', hget, heq⟩ | ⟨e, -, -, heq⟩ | ⟨l', hget, hlayout, heq⟩ <;>
    rw [heq] at h
  · obtain ⟨⟨rfl⟩, rfl⟩ := Prod.mk.inj h
    exact .inl hget
  · cases h
  · obtain ⟨⟨rfl⟩, rfl⟩ := Prod.mk.inj h
    exact .inr ⟨hget, hlayout⟩

/-! ## Request after request -/

/-- Requests for the modules, one after the other, are all answered with a layout, and leave published what was
published before and for each new identity the layout of the first module with it. -/
structure Serves (c : Cache) (modules : List Module) (after : Cache) : Prop where
  options_eq : after.options = c.options
  get?_eq_some_iff : ∀ id l, after.get? id = some l ↔ c.get? id = some l ∨
    c.get? id = none ∧ ∃ m, modules.find? (·.id = id) = some m ∧ m.layout c.options = .ok l
  answers : ∃ layouts : List Layout,
    c.performAll (modules.map .request) = (layouts.map fun l => .layout (.ok l), after) ∧
      modules.map (fun m => after.get? m.id) = layouts.map some

theorem Serves.nil (c : Cache) : c.Serves [] c :=
  ⟨rfl, fun id l => by simp, [], rfl, rfl⟩

theorem Serves.grows (h : c.Serves modules after) : c.Grows after :=
  ⟨h.options_eq, fun hget => (h.get?_eq_some_iff _ _).2 (.inl hget)⟩

/-- One request more is made in front of the others. -/
theorem Serves.cons (hfirst : c.getOrCreate m = (.ok l, c')) (h : c'.Serves rest after) :
    c.Serves (m :: rest) after := by
  have hgrows := grows_of_getOrCreate_eq hfirst
  have hget : c'.get? m.id = some l := get?_of_getOrCreate_eq_ok hfirst
  refine ⟨h.options_eq.trans hgrows.options_eq, fun id l' => ?_, ?_⟩
  · rw [h.get?_eq_some_iff, List.find?_cons, hgrows.options_eq]
    by_cases hid : id = m.id
    · -- for the identity of the first module nothing is published later
      subst hid
      rcases eq_of_getOrCreate_eq_ok hfirst with hold | ⟨hnone, hlayout⟩
      · simp [hget, hold]
      · simp [hget, hnone, hlayout]
    · simp [get?_of_getOrCreate_eq hfirst hid, Ne.symm hid]
  · obtain ⟨layouts, hperform, hlayouts⟩ := h.answers
    refine ⟨l :: layouts, ?_, ?_⟩
    · rw [List.map_cons, performAll, Operation.perform, hfirst]
      dsimp only
      rw [hperform]
      rfl
    · rw [List.map_cons, List.map_cons, h.grows.keeps hget, hlayouts]

/-- A layout is published for each of the modules. -/
theorem Serves.exists_get?_eq_some (h : c.Serves modules after) (hm : m ∈ modules) :
    ∃ l, after.get? m.id = some l := by
  obtain ⟨layouts, -, hlayouts⟩ := h.answers
  have hmem : after.get? m.id ∈ layouts.map some := hlayouts ▸ List.mem_map.2 ⟨m, hm, rfl⟩
  obtain ⟨l, -, hget⟩ := List.mem_map.1 hmem
  exact ⟨l, hget.symm⟩

/-! ## The first failure -/

/-- A layout is published for the identity by the time that requests for the modules in front have been made:
there was one before, or one of them has a layout to publish. -/
def Served (c : Cache) (front : List Module) (id : ModuleId) : Prop :=
  (∃ l, c.get? id = some l) ∨ ∃ m ∈ front, m.id = id ∧ ∃ l, m.layout c.options = .ok l

/-- The module at a position is not served by the time that its turn comes, and has no layout. -/
def FailsAt (c : Cache) (modules : List Module) (n : ℕ) (e : LayoutError) : Prop :=
  ∃ m, modules[n]? = some m ∧ ¬ c.Served (modules.take n) m.id ∧ m.layout c.options = .error e

/-- The module at a position is the first that fails. -/
structure FirstFailure (c : Cache) (modules : List Module) (n : ℕ) (e : LayoutError) : Prop where
  failsAt : c.FailsAt modules n e
  not_failsAt : ∀ k < n, ∀ e', ¬ c.FailsAt modules k e'

theorem FirstFailure.unique {n n' : ℕ} {e e' : LayoutError} (h : c.FirstFailure modules n e)
    (h' : c.FirstFailure modules n' e') : n = n' ∧ e = e' := by
  obtain rfl : n = n' := by
    apply Nat.le_antisymm
    · exact Nat.le_of_not_lt fun hlt => h.not_failsAt n' hlt e' h'.failsAt
    · exact Nat.le_of_not_lt fun hlt => h'.not_failsAt n hlt e h.failsAt
  obtain ⟨m, hm, -, hlayout⟩ := h.failsAt
  obtain ⟨m', hm', -, hlayout'⟩ := h'.failsAt
  obtain rfl : m = m' := Option.some.inj (hm.symm.trans hm')
  exact ⟨rfl, Except.error.inj (hlayout.symm.trans hlayout')⟩

/-- After a request that was answered, just those identities are served that would be with it. -/
theorem served_of_getOrCreate (h : c.getOrCreate m = (.ok l, c')) {id : ModuleId} :
    c'.Served front id ↔ c.Served (m :: front) id := by
  unfold Served
  rw [(grows_of_getOrCreate_eq h).options_eq]
  by_cases hid : id = m.id
  · subst hid
    refine iff_of_true (.inl ⟨l, get?_of_getOrCreate_eq_ok h⟩) ?_
    rcases eq_of_getOrCreate_eq_ok h with hold | ⟨-, hlayout⟩
    · exact .inl ⟨l, hold⟩
    · exact .inr ⟨m, List.mem_cons_self, rfl, l, hlayout⟩
  · simp [get?_of_getOrCreate_eq h hid, Ne.symm hid]

theorem failsAt_cons_succ (h : c.getOrCreate m = (.ok l, c')) {n : ℕ} :
    c.FailsAt (m :: rest) (n + 1) e ↔ c'.FailsAt rest n e := by
  unfold FailsAt
  simp only [List.getElem?_cons_succ, List.take_succ_cons, served_of_getOrCreate h,
    (grows_of_getOrCreate_eq h).options_eq]

theorem failsAt_cons_zero : c.FailsAt (m :: rest) 0 e ↔ c.getOrCreate m = (.error e, c) := by
  unfold FailsAt Served
  simp [getOrCreate_eq_error_iff, Option.eq_none_iff_forall_ne_some]

/-! ## Requests in turn -/

/-- Everything that requests in turn can come to: all modules are served, or those in front of the first that fails. -/
theorem requestAll_cases (c : Cache) (modules : List Module) :
    (∃ after, c.requestAll modules = (.ok (), after) ∧ (∀ n e, ¬ c.FailsAt modules n e) ∧
        c.Serves modules after) ∨
      ∃ n e after, c.requestAll modules = (.error e, after) ∧ c.FirstFailure modules n e ∧
        c.Serves (modules.take n) after := by
  induction modules generalizing c with
  | nil => exact .inl ⟨c, rfl, fun n e ⟨m, hm, _⟩ => by simp at hm, .nil c⟩
  | cons m rest ih =>
    rcases hrequest : c.getOrCreate m with ⟨e | l, c'⟩
    · -- the first module fails
      obtain ⟨hget, hlayout, rfl⟩ := getOrCreate_eq_error hrequest
      refine .inr ⟨0, e, c', by rw [requestAll, hrequest], ⟨failsAt_cons_zero.2 hrequest, ?_⟩, .nil c'⟩
      exact fun k hk => absurd hk (Nat.not_lt_zero k)
    · have hzero : ∀ e, ¬ c.FailsAt (m :: rest) 0 e := by
        intro e hfails
        rw [failsAt_cons_zero, hrequest] at hfails
        cases hfails
      have hunfold : c.requestAll (m :: rest) = c'.requestAll rest := by rw [requestAll, hrequest]
      rw [hunfold]
      rcases ih c' with ⟨after, heq, hnone, hserves⟩ | ⟨n, e, after, heq, hfirst, hserves⟩
      · refine .inl ⟨after, heq, fun n e hfails => ?_, .cons hrequest hserves⟩
        cases n with
        | zero => exact hzero e hfails
        | succ n => exact hnone n e ((failsAt_cons_succ hrequest).1 hfails)
      · refine .inr ⟨n + 1, e, after, heq, ⟨(failsAt_cons_succ hrequest).2 hfirst.failsAt, ?_⟩,
          .cons hrequest hserves⟩
        intro k hk e' hfails
        cases k with
        | zero => exact hzero e' hfails
        | succ k =>
          exact hfirst.not_failsAt k (Nat.lt_of_succ_lt_succ hk) e' ((failsAt_cons_succ hrequest).1 hfails)

/-- What is served by the modules in front is published after requests for them, and nothing else is. -/
theorem Serves.exists_get?_iff (h : c.Serves front after) {id : ModuleId} :
    (∃ l, after.get? id = some l) ↔ c.Served front id := by
  constructor
  · rintro ⟨l, hget⟩
    rcases (h.get?_eq_some_iff id l).1 hget with hold | ⟨-, m, hfind, hlayout⟩
    · exact .inl ⟨l, hold⟩
    · have hid : m.id = id := by simpa using List.find?_some hfind
      exact .inr ⟨m, List.mem_of_find?_eq_some hfind, hid, l, hlayout⟩
  · rintro (⟨l, hget⟩ | ⟨m, hm, rfl, -⟩)
    · exact ⟨l, h.grows.keeps hget⟩
    · exact h.exists_get?_eq_some hm

/-- Where the modules in front have been served, the module that fails is refused. -/
theorem FailsAt.getOrCreate_eq {n : ℕ} (h : c.FailsAt modules n e) (hserves : c.Serves (modules.take n) after) :
    ∃ m, modules[n]? = some m ∧ after.getOrCreate m = (.error e, after) := by
  obtain ⟨m, hm, hserved, hlayout⟩ := h
  rw [← hserves.exists_get?_iff, not_exists] at hserved
  exact ⟨m, hm, getOrCreate_eq_error_iff.2
    ⟨Option.eq_none_iff_forall_ne_some.2 hserved, hserves.options_eq ▸ hlayout, rfl⟩⟩

/-- A module is passed over when it is served by the time that its turn comes. -/
theorem requestAll_of_served (h : c.Served front m.id) (rest : List Module) :
    c.requestAll (front ++ m :: rest) = c.requestAll (front ++ rest) := by
  rw [requestAll_append, requestAll_append]
  rcases c.requestAll_cases front with ⟨after, heq, -, hserves⟩ | ⟨n, e, after, heq, -, -⟩
  · obtain ⟨l, hget⟩ := hserves.exists_get?_iff.2 h
    rw [heq]
    dsimp only
    rw [requestAll, getOrCreate_of_get?_eq_some hget]
  · rw [heq]

/-- What comes behind a module does not matter for its failure. -/
theorem failsAt_append (h : n < front.length) : c.FailsAt (front ++ rest) n e ↔ c.FailsAt front n e := by
  unfold FailsAt
  rw [List.getElem?_append_left h, List.take_append_of_le_length (Nat.le_of_lt h)]

theorem FailsAt.lt_length (h : c.FailsAt modules n e) : n < modules.length := by
  obtain ⟨m, hm, -, -⟩ := h
  exact (List.getElem?_eq_some_iff.1 hm).1

theorem firstFailure_append (h : n < front.length) :
    c.FirstFailure (front ++ rest) n e ↔ c.FirstFailure front n e := by
  have hbefore : ∀ k < n, ∀ e', c.FailsAt (front ++ rest) k e' ↔ c.FailsAt front k e' :=
    fun k hk e' => failsAt_append (Nat.lt_trans hk h)
  constructor
  · exact fun hfirst => ⟨(failsAt_append h).1 hfirst.failsAt,
      fun k hk e' hfails => hfirst.not_failsAt k hk e' ((hbefore k hk e').2 hfails)⟩
  · exact fun hfirst => ⟨(failsAt_append h).2 hfirst.failsAt,
      fun k hk e' hfails => hfirst.not_failsAt k hk e' ((hbefore k hk e').1 hfails)⟩

/-- Requests in turn end with an error at the first failure, which is also that of a longer list. -/
theorem exists_firstFailure_of_requestAll_eq (h : c.requestAll front = (.error e, after)) (rest : List Module) :
    ∃ n, c.FirstFailure (front ++ rest) n e ∧ c.Serves ((front ++ rest).take n) after ∧
      (∃ m, (front ++ rest)[n]? = some m ∧ after.getOrCreate m = (.error e, after)) ∧
      rest <:+ (front ++ rest).drop (n + 1) := by
  rcases c.requestAll_cases front with ⟨after', heq, -, -⟩ | ⟨n, e', after', heq, hfirst, hserves⟩ <;>
    rw [heq] at h <;> cases h
  have hn := hfirst.failsAt.lt_length
  refine ⟨n, (firstFailure_append hn).2 hfirst, ?_⟩
  rw [List.take_append_of_le_length (Nat.le_of_lt hn), List.getElem?_append_left hn,
    List.drop_append_of_le_length hn]
  exact ⟨hserves, hfirst.failsAt.getOrCreate_eq hserves, List.suffix_append _ _⟩

/-! ## Divided batches -/

/-- Everything that a divided batch can come to: it goes as requests in turn do, or one of its pieces overflows,
and the pieces behind it are gone through nevertheless. -/
theorem precomputeIn_cases (c : Cache) (pieces : List (List Module)) :
    (c.requestAll pieces.flatten).1 ≠ .error .overflow ∧ c.precomputeIn pieces = c.requestAll pieces.flatten ∨
      ∃ front waiting after, pieces.flatten = front ++ waiting.flatten ∧
        c.requestAll front = (.error .overflow, after) ∧
        ∀ later, c.precomputeIn (pieces ++ later) =
          (.error .overflow, (after.precomputeIn (waiting ++ later)).2) := by
  induction pieces generalizing c with
  | nil => exact .inl ⟨by simp [requestAll], rfl⟩
  | cons piece waiting ih =>
    rw [List.flatten_cons, requestAll_append, precomputeIn]
    simp only [List.cons_append, precomputeIn]
    rcases hpiece : c.requestAll piece with ⟨e | ⟨⟩, c'⟩
    · cases e with
      | overflow => exact .inr ⟨piece, waiting, c', rfl, hpiece, fun later => rfl⟩
      | field f defect => exact .inl ⟨by simp, rfl⟩
      | unsupportedTarget pointerSize largestPrimitive => exact .inl ⟨by simp, rfl⟩
    · -- a piece that is served goes in front of what the others come to
      rcases ih c' with hsame | ⟨front, behind, after, hflatten, hfront, heq⟩
      · exact .inl hsame
      · refine .inr ⟨piece ++ front, behind, after, by rw [hflatten, List.append_assoc], ?_, heq⟩
        rw [requestAll_append, hpiece]
        exact hfront

/-- Without an overflow a divided batch goes as requests in turn do. -/
theorem precomputeIn_of_ne_overflow (h : (c.precomputeIn pieces).1 ≠ .error .overflow) :
    c.precomputeIn pieces = c.requestAll pieces.flatten := by
  rcases c.precomputeIn_cases pieces with ⟨-, heq⟩ | ⟨front, waiting, after, -, -, heq⟩
  · exact heq
  · rw [← List.append_nil pieces, heq] at h
    exact absurd rfl h

/-- Where requests in turn are all answered, a batch serves the same however it is divided. -/
theorem precomputeIn_eq_ok (h : c.requestAll pieces.flatten = (.ok (), after)) :
    c.precomputeIn pieces = (.ok (), after) := by
  rw [precomputeIn_of_ne_overflow, h]
  rw [fst_precomputeIn, h]
  nofun

/-- How a batch goes, with what it is answered and what it leaves. -/
structure WarmsUp (c : Cache) (modules : List Module) (outcome : Except LayoutError Unit × Cache) : Prop where
  /-- It fails with the error of the first module that is not served by then and has no layout. -/
  eq_error_iff : ∀ e, outcome.1 = .error e ↔ ∃ n, c.FirstFailure modules n e
  eq_ok_iff : outcome.1 = .ok () ↔ ∀ n e, ¬ c.FailsAt modules n e
  /-- Without a failure all modules are served. -/
  serves_of_ok : outcome.1 = .ok () → c.Serves modules outcome.2
  /-- The modules in front of an error are served, and the request behind them is the one that fails. -/
  serves_of_firstFailure : ∀ n e, c.FirstFailure modules n e → e ≠ .overflow →
    c.Serves (modules.take n) outcome.2 ∧ ∃ m, modules[n]? = some m ∧
      outcome.2.getOrCreate m = (.error e, outcome.2)
  /-- The modules in front of an overflow are served, too, and then the batch goes on somewhere behind it. -/
  serves_of_overflow : ∀ n, c.FirstFailure modules n .overflow → ∃ served pieces,
    c.Serves (modules.take n) served ∧
      (∃ m, modules[n]? = some m ∧ served.getOrCreate m = (.error .overflow, served)) ∧
      pieces.flatten <:+ modules.drop (n + 1) ∧ outcome.2 = (served.precomputeIn pieces).2

/-- So it goes when the modules are requested in turn. -/
theorem warmsUp_requestAll (c : Cache) (modules : List Module) : c.WarmsUp modules (c.requestAll modules) := by
  rcases c.requestAll_cases modules with ⟨after, heq, hnone, hserves⟩ | ⟨n, e, after, heq, hfirst, hserves⟩
  · have hno : ∀ n e, ¬ c.FirstFailure modules n e := fun n e h => hnone n e h.failsAt
    rw [heq]
    exact ⟨fun e => iff_of_false nofun fun ⟨n, h⟩ => hno n e h, iff_of_true rfl hnone, fun _ => hserves,
      fun n e h => absurd h (hno n e), fun n h => absurd h (hno n .overflow)⟩
  · rw [heq]
    have hrequest := hfirst.failsAt.getOrCreate_eq hserves
    refine ⟨fun e' => ?_, iff_of_false nofun fun h => h n e hfirst.failsAt, nofun, fun n' e' h _ => ?_,
      fun n' h => ?_⟩
    · refine ⟨?_, fun ⟨n', h⟩ => congrArg Except.error (hfirst.unique h).2⟩
      rintro ⟨⟩
      exact ⟨n, hfirst⟩
    · obtain ⟨rfl, rfl⟩ := hfirst.unique h
      exact ⟨hserves, hrequest⟩
    · obtain ⟨rfl, rfl⟩ := hfirst.unique h
      exact ⟨after, [], hserves, hrequest, List.nil_suffix, rfl⟩

/-- So it goes however a batch is divided. -/
theorem warmsUp_precomputeIn (c : Cache) (pieces : List (List Module)) :
    c.WarmsUp pieces.flatten (c.precomputeIn pieces) := by
  rcases c.precomputeIn_cases pieces with ⟨-, heq⟩ | ⟨front, waiting, after, hflatten, hfront, heq⟩
  · rw [heq]
    exact c.warmsUp_requestAll pieces.flatten
  · obtain ⟨n, hfirst, hserves, hrequest, hrest⟩ :=
      exists_firstFailure_of_requestAll_eq hfront waiting.flatten
    have heq : c.precomputeIn pieces = (.error .overflow, (after.precomputeIn waiting).2) := by
      simpa using heq []
    rw [heq, hflatten]
    refine ⟨fun e' => ?_, iff_of_false nofun fun h => h n _ hfirst.failsAt, nofun, fun n' e' h hne => ?_,
      fun n' h => ?_⟩
    · refine ⟨?_, fun ⟨n', h⟩ => congrArg Except.error (hfirst.unique h).2⟩
      rintro ⟨⟩
      exact ⟨n, hfirst⟩
    · exact absurd (hfirst.unique h).2.symm hne
    · obtain ⟨rfl, -⟩ := hfirst.unique h
      exact ⟨after, waiting, hserves, hrequest, hrest, rfl⟩

/-- A module that is served by the time that its turn comes changes no answer, and without an overflow nothing
that is published. -/
theorem precomputeIn_of_served {pieces pieces' : List (List Module)} (h : c.Served front m.id)
    (hwith : pieces.flatten = front ++ m :: rest) (hwithout : pieces'.flatten = front ++ rest) :
    (c.precomputeIn pieces).1 = (c.precomputeIn pieces').1 ∧
      ((c.precomputeIn pieces).1 ≠ .error .overflow → c.precomputeIn pieces = c.precomputeIn pieces') := by
  have hsame : c.requestAll pieces.flatten = c.requestAll pieces'.flatten := by
    rw [hwith, hwithout, requestAll_of_served h]
  refine ⟨by rw [fst_precomputeIn, fst_precomputeIn, hsame], fun hne => ?_⟩
  rw [precomputeIn_of_ne_overflow hne, precomputeIn_of_ne_overflow, hsame]
  rwa [fst_precomputeIn, ← hsame, ← fst_precomputeIn]

/-! ## A worker alone -/

/-- What a worker alone does with a batch is one way to divide it. -/
theorem exists_precompute_eq (c : Cache) (modules : List Module) (outside : Bool) :
    ∃ pieces, pieces.flatten = modules ∧ c.precompute modules outside = c.precomputeIn pieces := by
  obtain ⟨divisions, hmodules, heq⟩ := c.exists_precomputeParts_eq [⟨modules, true, false, outside⟩]
  obtain ⟨pieces, rfl⟩ := List.length_eq_one_iff.1 ((List.length_map _).symm.trans (congrArg _ hmodules))
  refine ⟨pieces, by simpa using hmodules, ?_⟩
  rw [precompute, heq, List.flatten_singleton]

/-- A batch of two modules or more is cut in the middle, and no piece is part of both halves. -/
theorem exists_precompute_eq_append (htwo : 2 ≤ modules.length) (outside : Bool) :
    ∃ first second : List (List Module), first.flatten = modules.take (modules.length / 2) ∧
      second.flatten = modules.drop (modules.length / 2) ∧
      c.precompute modules outside = c.precomputeIn (first ++ second) := by
  have hhalves : (Part.mk modules true false outside).halves? =
      some (⟨modules.take (modules.length / 2), false, outside, false⟩,
        ⟨modules.drop (modules.length / 2), false, outside, false⟩) := by
    rw [Part.halves?, if_pos ⟨htwo, rfl⟩]
  rw [precompute, precomputeParts_of_halves?_eq_some c [] hhalves]
  obtain ⟨divisions, hmodules, heq⟩ := c.exists_precomputeParts_eq
    [⟨modules.take (modules.length / 2), false, outside, false⟩,
      ⟨modules.drop (modules.length / 2), false, outside, false⟩]
  match divisions with
  | [] | [_] | _ :: _ :: _ :: _ => simp at hmodules
  | [first, second] =>
    simp only [List.map_cons, List.map_nil, List.cons.injEq, and_true] at hmodules
    exact ⟨first, second, hmodules.1, hmodules.2, by simpa using heq⟩

/-- What a worker alone does when the first half of a batch overflows: it goes on, with the whole second half. -/
theorem exists_precompute_of_overflow (hfirst : c.FirstFailure modules n .overflow)
    (hn : n < modules.length / 2) (outside : Bool) :
    ∃ served pieces, c.Serves (modules.take n) served ∧ pieces.flatten <:+ modules.drop (n + 1) ∧
      modules.drop (modules.length / 2) <:+ pieces.flatten ∧
      (c.precompute modules outside).2 = (served.precomputeIn pieces).2 := by
  have htwo : 2 ≤ modules.length := by omega
  obtain ⟨first, second, htake, hdrop, heq⟩ := exists_precompute_eq_append (c := c) htwo outside
  have hmodules : modules = first.flatten ++ second.flatten := by rw [htake, hdrop, List.take_append_drop]
  have hlength : n < first.flatten.length := by
    rw [htake, List.length_take]
    omega
  have hfailure : (c.requestAll first.flatten).1 = .error .overflow := by
    rw [hmodules, firstFailure_append hlength] at hfirst
    exact ((c.warmsUp_requestAll first.flatten).eq_error_iff _).2 ⟨n, hfirst⟩
  rcases c.precomputeIn_cases first with ⟨hne, -⟩ | ⟨front, waiting, after, hflatten, hfront, hlater⟩
  · exact absurd hfailure hne
  · have hwhole : modules = front ++ (waiting ++ second).flatten := by
      rw [hmodules, hflatten, List.flatten_append, List.append_assoc]
    obtain ⟨n', hfirst', hserves, -, hrest⟩ :=
      exists_firstFailure_of_requestAll_eq hfront (waiting ++ second).flatten
    rw [← hwhole] at hfirst' hserves hrest
    obtain ⟨rfl, -⟩ := hfirst'.unique hfirst
    refine ⟨after, waiting ++ second, hserves, hrest, ?_, by rw [heq, hlater]⟩
    rw [← hdrop, List.flatten_append]
    exact List.suffix_append _ _

/-! ## What callers may rely on -/

/-- A failure leaves a cache as it was, and whoever asks again is told the same. -/
structure FailsCleanly (c : Cache) : Prop where
  request : ∀ m e c', c.getOrCreate m = (.error e, c') → c' = c ∧ c'.getOrCreate m = (.error e, c')
  typeLayout : ∀ m t e c', c.typeLayout m t = (.error e, c') → c' = c ∧ c'.typeLayout m t = (.error e, c')
  /-- This lasts until a layout is published for the identity, whatever else is published. -/
  request_later : ∀ m e c' later, c.getOrCreate m = (.error e, c') → c'.Grows later →
    later.get? m.id = none → later.getOrCreate m = (.error e, later)
  /-- A module does not fail while a layout is published for its identity. -/
  request_published : ∀ m l, c.get? m.id = some l → c.getOrCreate m = (.ok l, c)
  /-- A batch goes so however it is divided into pieces, of which one is gone through at a time. -/
  warmUp : ∀ pieces, c.WarmsUp pieces.flatten (c.precomputeIn pieces)
  /-- So it goes for a worker alone. -/
  warmUp_alone : ∀ modules outside, c.WarmsUp modules (c.precompute modules outside)
  /-- An overflow in the first half of a batch does not keep a worker alone from the second half. -/
  second_half : ∀ modules outside n, c.FirstFailure modules n .overflow → n < modules.length / 2 →
    ∃ served pieces, c.Serves (modules.take n) served ∧ pieces.flatten <:+ modules.drop (n + 1) ∧
      modules.drop (modules.length / 2) <:+ pieces.flatten ∧
      (c.precompute modules outside).2 = (served.precomputeIn pieces).2
  /-- A module that is served by the time that its turn comes may be left out, whatever it holds. -/
  passes_over : ∀ front m rest outside, c.Served front m.id →
    (c.precompute (front ++ m :: rest) outside).1 = (c.precompute (front ++ rest) outside).1 ∧
      ((c.precompute (front ++ m :: rest) outside).1 ≠ .error .overflow →
        c.precompute (front ++ m :: rest) outside = c.precompute (front ++ rest) outside)

/-- Every cache fails cleanly. -/
theorem failsCleanly (c : Cache) : c.FailsCleanly := by
  refine ⟨?request, ?typeLayout, ?request_later, fun m l => getOrCreate_of_get?_eq_some,
    c.warmsUp_precomputeIn, ?warmUp_alone,
    fun modules outside n hfirst hn => exists_precompute_of_overflow hfirst hn outside, ?passes_over⟩
  case request =>
    intro m e c' h
    obtain ⟨-, -, rfl⟩ := getOrCreate_eq_error_iff.1 h
    exact ⟨rfl, h⟩
  case typeLayout =>
    intro m t e c' h
    obtain ⟨-, hrequest⟩ := typeLayout_eq_error_iff.1 h
    obtain ⟨-, -, rfl⟩ := getOrCreate_eq_error_iff.1 hrequest
    exact ⟨rfl, h⟩
  case request_later =>
    intro m e c' later h hgrows hget
    obtain ⟨-, hlayout, rfl⟩ := getOrCreate_eq_error_iff.1 h
    exact getOrCreate_eq_error_iff.2 ⟨hget, hgrows.options_eq ▸ hlayout, rfl⟩
  case warmUp_alone =>
    intro modules outside
    obtain ⟨pieces, rfl, heq⟩ := c.exists_precompute_eq modules outside
    rw [heq]
    exact c.warmsUp_precomputeIn pieces
  case passes_over =>
    intro front m rest outside hserved
    obtain ⟨pieces, hwith, heq⟩ := c.exists_precompute_eq (front ++ m :: rest) outside
    obtain ⟨pieces', hwithout, heq'⟩ := c.exists_precompute_eq (front ++ rest) outside
    rw [heq, heq']
    exact precomputeIn_of_served hserved hwith hwithout

/-- A module with two values of unknown size. -/
def wideModule : Module :=
  .build ⟨2⟩ 8 [.type ⟨"App", "O"⟩, .field ⟨1⟩ "f" .static [0x06, 0x11, 0x05],
    .field ⟨1⟩ "f" .static [0x06, 0x11, 0x05]]

/-- A module with a four-byte integer. -/
def smallModule : Module := .build ⟨1⟩ 8 [.type ⟨"App", "A"⟩, .field ⟨1⟩ "f" .static [0x06, 0x08]]

/-- The first module of a batch overflows, and yet the layout of the second is published. -/
theorem contains_precompute_wideModule :
    (empty ⟨2147483648⟩).FirstFailure [wideModule, smallModule] 0 .overflow ∧
      ((empty ⟨2147483648⟩).precompute [wideModule, smallModule]).1 = .error .overflow ∧
      ((empty ⟨2147483648⟩).precompute [wideModule, smallModule]).2.contains ⟨1⟩ = true := by
  have hlayout : wideModule.layout ⟨2147483648⟩ = .error .overflow := by decide +kernel
  refine ⟨⟨?_, fun k hk => absurd hk (Nat.not_lt_zero k)⟩, by decide +kernel, by decide +kernel⟩
  exact failsAt_cons_zero.2 (getOrCreate_eq_error_iff.2 ⟨rfl, hlayout, rfl⟩)

end Cache

end StaticStorage
