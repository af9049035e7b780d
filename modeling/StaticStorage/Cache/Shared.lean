import StaticStorage.Cache.Worker

/-!
# Shared caches

A cache that any number of callers use at the same time. A request for a layout takes the steps of a
worker, and each of the three queries takes a single step. A schedule is the list of the calls whose turn
it is, one after the other: every interleaving of the steps is the run of some schedule. A turn of a call
that is answered already, or that does not exist, changes nothing.

`Operation.perform` is the same operation without a pause, and `Cache.performAll` a serial run.
-/

namespace StaticStorage

/-- A question about what is published. -/
inductive Query where
  | entry (id : ModuleId)
  | contains (id : ModuleId)
  | size

/-- What a caller may ask of a shared cache. -/
inductive Operation where
  /-- The layout of a module, computed if need be. -/
  | request (m : Module)
  | query (q : Query)

/-- The answer to an operation. -/
inductive Answer where
  | layout (answer : Except LayoutError Layout)
  | entry (published : Option Layout)
  | contains (published : Bool)
  | size (count : Nat)

/-- The answer to a question. -/
def Query.answer (c : Cache) : Query → Answer
  | entry id => .entry (c.get? id)
  | contains id => .contains (c.contains id)
  | size => .size c.size

/-! ## Serial runs -/

/-- Carry out an operation without a pause. -/
def Operation.perform (c : Cache) : Operation → Answer × Cache
  | request m =>
    let (answer, c) := c.getOrCreate m
    (.layout answer, c)
  | query q => (q.answer c, c)

/-- Carry out operations one after the other. -/
def Cache.performAll (c : Cache) : List Operation → List Answer × Cache
  | [] => ([], c)
  | operation :: rest =>
    let (answer, c) := operation.perform c
    let (answers, c) := c.performAll rest
    (answer :: answers, c)

/-! ## Calls in progress -/

/-- An operation and how far it has come. -/
inductive Call where
  | request (m : Module) (worker : Worker)
  /-- A question, with its answer once it has been asked. -/
  | query (q : Query) (answer : Option Answer)

namespace Call

/-- A call of which nothing has been done yet. -/
def start : Operation → Call
  | .request m => request m (.waiting m)
  | .query q => query q none

/-- The operation that the call is for. -/
def operation : Call → Operation
  | request m _ => .request m
  | query q _ => .query q

/-- The answer, once there is one. -/
def answer? : Call → Option Answer
  | request _ (.answered answer) => some (.layout answer)
  | request _ _ => none
  | query _ answer => answer

/-- Take the next step. -/
def step (c : Cache) : Call → Call × Cache
  | request m worker =>
    let (worker, c) := worker.step c
    (request m worker, c)
  | query q none => (query q (some (q.answer c)), c)
  | query q (some answer) => (query q (some answer), c)

end Call

/-- A cache and the calls on it. -/
structure SharedCache where
  cache : Cache
  calls : List Call

namespace SharedCache

/-- A cache before the first step of any of the calls. -/
def start (c : Cache) (operations : List Operation) : SharedCache := ⟨c, operations.map Call.start⟩

/-- The answer to a call, once there is one. -/
def answer? (s : SharedCache) (i : Nat) : Option Answer := s.calls[i]?.bind Call.answer?

/-- Let one call take its next step. -/
def step (s : SharedCache) (i : Nat) : SharedCache :=
  match s.calls[i]? with
  | some call => ⟨(call.step s.cache).2, s.calls.set i (call.step s.cache).1⟩
  | none => s

/-- Let calls take their steps in the order of a schedule. -/
def run (s : SharedCache) (schedule : List Nat) : SharedCache := schedule.foldl step s

/-- The state before the step at a position of the schedule. -/
def before (s : SharedCache) (schedule : List Nat) (n : Nat) : SharedCache := s.run (schedule.take n)

end SharedCache

end StaticStorage
