import StaticStorage.Cache.Basic

/-!
# Workers

Several workers may share a cache. A request is not one step but three: look the module up, compute its
layout without holding the cache, and publish. Between any two of them other workers may take steps of
their own.

A batch of requests is divided among the workers of a pool, and into pieces also for a worker that is alone. An
error ends the batch. An overflow does not: no worker but the one that met it hears of it, so the pieces that
wait are requested nevertheless, and it is reported when they are through.

* `Cache.fst_precomputeIn` — the answer to a divided batch is that of requests in turn.
* `Cache.exists_precomputeParts_eq` — what a worker alone does with a batch is one way to divide it.
-/

namespace StaticStorage

/-- How far a worker has come with a request. -/
inductive Worker where
  /-- Nothing has been done yet. -/
  | waiting (m : Module)
  /-- No layout was published at the time of the look-up. -/
  | missed (m : Module)
  /-- A layout has been computed but not been published. -/
  | computed (id : ModuleId) (l : Layout)
  /-- The request has been answered. -/
  | answered (answer : Except LayoutError Layout)

namespace Worker

/-- Take the next step. -/
def step (c : Cache) : Worker → Worker × Cache
  | waiting m =>
    match c.get? m.id with
    | some l => (answered (.ok l), c)
    | none => (missed m, c)
  | missed m =>
    match m.layout c.options with
    | .error e => (answered (.error e), c)
    | .ok l => (computed m.id l, c)
  | computed id l =>
    let (first, c) := c.publish id l
    (answered (.ok first), c)
  | answered answer => (answered answer, c)

/-- Take all steps that are left, without a pause. -/
def finish (c : Cache) : Worker → Except LayoutError Layout × Cache
  | waiting m => c.getOrCreate m
  | missed m => c.fill m
  | computed id l =>
    let (first, c) := c.publish id l
    (.ok first, c)
  | answered answer => (answer, c)

end Worker

/-! ## A lost race -/

/-- What two workers got that asked at the same time. -/
structure Race where
  /-- The answer to the worker that came second but published first; nothing when the other one found
  its module published. -/
  rival : Option (Except LayoutError Layout)
  mine : Except LayoutError Layout

/-- Let a rival finish a whole request right after a look-up missed, and before that request goes on. An
overflow on either side ends the race. -/
def Cache.race (c : Cache) (mine rival : Module) : Except LayoutError Race × Cache :=
  match (Worker.waiting mine).step c with
  | (.answered answer, c) => (.ok ⟨none, answer⟩, c)
  | (worker, c) =>
    match c.getOrCreate rival with
    | (.error .overflow, c) => (.error .overflow, c)
    | (theirs, c) =>
      match worker.finish c with
      | (.error .overflow, c) => (.error .overflow, c)
      | (ours, c) => (.ok ⟨some theirs, ours⟩, c)

/-! ## Batches -/

/-- A part of a batch that waits for its turn. -/
structure Part where
  modules : List Module
  /-- There is a cut to spare for it. -/
  spare : Bool
  /-- It was taken over as work of its own, which gives it a cut, and each of its halves one to spare. -/
  taken : Bool
  /-- It comes from a caller that is no worker of the pool, so that its halves are taken over. -/
  outside : Bool

namespace Part

/-- The two parts that a worker makes of one, if it may be cut. -/
def halves? (p : Part) : Option (Part × Part) :=
  if 2 ≤ p.modules.length ∧ (p.spare || p.taken) then
    let middle := p.modules.length / 2
    some (⟨p.modules.take middle, p.taken, p.outside, false⟩,
      ⟨p.modules.drop middle, p.taken, p.outside, false⟩)
  else none

/-- The number of turns that a part may still need, at most. -/
def turns (p : Part) : Nat := 3 * p.modules.length - 2 + 1

/-- The number of turns that all of the parts may still need. -/
def turnsOf : List Part → Nat
  | [] => 0
  | p :: waiting => p.turns + turnsOf waiting

/-- The parts that wait, each taken over as work of its own. -/
def takeOver (waiting : List Part) : List Part := waiting.map fun p => { p with taken := true }

theorem map_modules_takeOver (waiting : List Part) :
    (takeOver waiting).map Part.modules = waiting.map Part.modules :=
  List.map_map

theorem turnsOf_takeOver (waiting : List Part) : turnsOf (takeOver waiting) = turnsOf waiting := by
  induction waiting with
  | nil => rfl
  | cons p waiting ih => exact congrArg (p.turns + ·) ih

/-- Halves are the modules of the part in their order, and need fewer turns. -/
theorem of_halves?_eq_some {p first second : Part} (h : p.halves? = some (first, second)) :
    first.modules ++ second.modules = p.modules ∧ first.turns + second.turns < p.turns := by
  unfold halves? at h
  split at h
  · next hcut =>
    obtain ⟨rfl, rfl⟩ := Prod.mk.inj (Option.some.inj h)
    refine ⟨List.take_append_drop _ _, ?_⟩
    simp only [turns, List.length_take, List.length_drop]
    omega
  · cases h

end Part

namespace Cache

/-- Go through the parts of a batch, as a worker does that is alone in its pool: the first part is cut while it
may be, and then requested in turn. An overflow is known of just when all parts that wait have been taken over and
gone through. -/
def precomputeParts (c : Cache) : List Part → Except LayoutError Unit × Cache
  | [] => (.ok (), c)
  | part :: waiting =>
    match h : part.halves? with
    | some (first, second) =>
      have := (Part.of_halves?_eq_some h).2
      c.precomputeParts (first :: second :: waiting)
    | none =>
      match c.requestAll part.modules with
      | (.ok _, c) => c.precomputeParts waiting
      | (.error .overflow, c) =>
        (.error .overflow, (c.precomputeParts (Part.takeOver waiting)).2)
      | (.error e, c) => (.error e, c)
termination_by parts => Part.turnsOf parts
decreasing_by
  · simp only [Part.turnsOf]
    omega
  · simp only [Part.turnsOf, Part.turns]
    omega
  · simp only [Part.turnsOf_takeOver, Part.turnsOf, Part.turns]
    omega

theorem precomputeParts_of_halves?_eq_some (c : Cache) {part first second : Part} (waiting : List Part)
    (h : part.halves? = some (first, second)) :
    c.precomputeParts (part :: waiting) = c.precomputeParts (first :: second :: waiting) := by
  rw [precomputeParts]
  split
  · next first' second' h' =>
    obtain ⟨rfl, rfl⟩ := Prod.mk.inj (Option.some.inj (h.symm.trans h'))
    rfl
  · next h' =>
    rw [h] at h'
    cases h'

/-- Request the layouts of many modules, as a worker does that is alone in its pool. -/
def precompute (c : Cache) (modules : List Module) (outside : Bool := false) :
    Except LayoutError Unit × Cache :=
  c.precomputeParts [⟨modules, true, false, outside⟩]

/-- Request the layouts of a batch that is divided into pieces. -/
def precomputeIn (c : Cache) : List (List Module) → Except LayoutError Unit × Cache
  | [] => (.ok (), c)
  | piece :: waiting =>
    match c.requestAll piece with
    | (.ok _, c) => c.precomputeIn waiting
    | (.error .overflow, c) => (.error .overflow, (c.precomputeIn waiting).2)
    | (.error e, c) => (.error e, c)

/-- The answer to a divided batch is that of requests in turn. -/
theorem fst_precomputeIn (c : Cache) (pieces : List (List Module)) :
    (c.precomputeIn pieces).1 = (c.requestAll pieces.flatten).1 := by
  induction pieces generalizing c with
  | nil => rfl
  | cons piece waiting ih =>
    rw [precomputeIn, List.flatten_cons, requestAll_append]
    split
    · next c' heq => simp only [heq, ih]
    · next c' heq => simp only [heq]
    · next e c' hne heq => simp only [heq]

/-- What a worker alone does with the parts of a batch is one way to divide it, and each part by itself. -/
theorem exists_precomputeParts_eq (c : Cache) (parts : List Part) :
    ∃ divisions : List (List (List Module)), divisions.map List.flatten = parts.map Part.modules ∧
      c.precomputeParts parts = c.precomputeIn divisions.flatten := by
  fun_induction precomputeParts c parts with
  | case1 c => exact ⟨[], rfl, rfl⟩
  | case2 c part waiting first second hcut _ ih =>
    -- the two halves of the part are divided as they are by themselves
    obtain ⟨_ | ⟨inFirst, _ | ⟨inSecond, rest⟩⟩, hmodules, heq⟩ := ih
    · simp at hmodules
    · simp at hmodules
    · simp only [List.map_cons, List.cons.injEq] at hmodules
      obtain ⟨hfirst, hsecond, hrest⟩ := hmodules
      refine ⟨(inFirst ++ inSecond) :: rest, ?_, ?_⟩
      · rw [List.map_cons, List.map_cons, List.flatten_append, hfirst, hsecond, hrest,
          (Part.of_halves?_eq_some hcut).1]
      · rw [heq]
        simp only [List.flatten_cons, List.append_assoc]
  | case3 c part waiting hwhole answer c' hrequest ih =>
    obtain ⟨rest, hrest, heq⟩ := ih
    refine ⟨[part.modules] :: rest, by simp [hrest], ?_⟩
    rw [List.flatten_cons, List.singleton_append, precomputeIn, hrequest]
    exact heq
  | case4 c part waiting hwhole c' hrequest ih =>
    obtain ⟨rest, hrest, heq⟩ := ih
    rw [Part.map_modules_takeOver] at hrest
    refine ⟨[part.modules] :: rest, by simp [hrest], ?_⟩
    rw [List.flatten_cons, List.singleton_append, precomputeIn, hrequest, heq]
  | case5 c part waiting hwhole e c' hne hrequest =>
    refine ⟨[part.modules] :: waiting.map fun p => [p.modules], by simp, ?_⟩
    rw [List.flatten_cons, List.singleton_append, precomputeIn, hrequest]
    cases e with
    | overflow => exact absurd rfl hne
    | field f defect => rfl
    | unsupportedTarget pointerSize largestPrimitive => rfl

end Cache

end StaticStorage
