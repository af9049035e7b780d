import StaticStorage.Cache.Shared

/-!
# Histories of a cache

What is done with a cache over its life, one thing after the other, and what comes back each time. One of
the things is a round: several callers use the cache at the same time, their steps interleaved by a
schedule. A warm-up on several workers is a round of requests that ends wherever its schedule ends, be it
after the last request or at a failure. A warm-up on one worker is a batch in pieces.
-/

namespace StaticStorage

/-- One thing that is done with a cache. -/
inductive Use where
  /-- Ask for the layout of a module. -/
  | request (m : Module)
  /-- Ask what is published for an identity. -/
  | entry (id : ModuleId)
  /-- Ask for the layout of one type of a module. -/
  | typeLayout (m : Module) (t : TypeId)
  /-- Request the layouts of a batch that is divided into pieces. -/
  | precompute (pieces : List (List Module))
  /-- Let several callers take their steps in the order of a schedule. -/
  | round (operations : List Operation) (schedule : List Nat)

/-- What comes back. -/
inductive Reply where
  | layout (answer : Except LayoutError Layout)
  | entry (published : Option Layout)
  | typeLayout (answer : Except LayoutError TypeLayout)
  | precompute (answer : Except LayoutError Unit)
  /-- The answers to the calls of a round, as far as there are any. -/
  | round (answers : List (Option Answer))

/-- The module that an operation hands to the cache. -/
def Operation.module? : Operation → Option Module
  | request m => some m
  | query _ => none

/-- The modules that are handed to the cache. -/
def Use.modules : Use → List Module
  | request m => [m]
  | entry _ => []
  | typeLayout m _ => [m]
  | precompute pieces => pieces.flatten
  | round operations _ => operations.filterMap Operation.module?

namespace Cache

/-- Do one thing with a cache. -/
def use (c : Cache) : Use → Reply × Cache
  | .request m =>
    let (answer, c) := c.getOrCreate m
    (.layout answer, c)
  | .entry id => (.entry (c.get? id), c)
  | .typeLayout m t =>
    let (answer, c) := c.typeLayout m t
    (.typeLayout answer, c)
  | .precompute pieces =>
    let (answer, c) := c.precomputeIn pieces
    (.precompute answer, c)
  | .round operations schedule =>
    let s := (SharedCache.start c operations).run schedule
    (.round (s.calls.map Call.answer?), s.cache)

/-- Do one thing after the other. -/
def useAll (c : Cache) : List Use → List Reply × Cache
  | [] => ([], c)
  | u :: rest =>
    let (reply, c) := c.use u
    let (replies, c) := c.useAll rest
    (reply :: replies, c)

end Cache

end StaticStorage
