/-!
# Storage blocks

The statics of a module live in four blocks. References live apart from raw bytes, so that the collector
finds them, and what every thread has for itself lives apart from what the process shares.

* `BlockTable.get_set` — a table holds what was last put under a kind, and every other kind keeps its own.
* `BlockTable.ext_get` — tables with the same entries are equal.
* `BlockKind.select_isGc_isThreadLocal` — a kind is determined by its two properties.
-/

namespace StaticStorage

/-- One of the four blocks of a module. -/
inductive BlockKind where
  /-- References shared by the process. -/
  | gc
  /-- Raw bytes shared by the process. -/
  | nonGc
  /-- References of a single thread. -/
  | threadGc
  /-- Raw bytes of a single thread. -/
  | threadNonGc
deriving DecidableEq

namespace BlockKind

/-- All kinds, in the order in which blocks are listed. -/
def all : List BlockKind := [gc, nonGc, threadGc, threadNonGc]

/-- The block of a slot, by whether it holds a reference and whether every thread has its own. -/
def select (isGc isThreadLocal : Bool) : BlockKind :=
  match isThreadLocal, isGc with
  | false, true => gc
  | false, false => nonGc
  | true, true => threadGc
  | true, false => threadNonGc

/-- Does the collector scan the block? -/
def isGc : BlockKind → Bool
  | gc | threadGc => true
  | nonGc | threadNonGc => false

/-- Does every thread have the block for itself? -/
def isThreadLocal : BlockKind → Bool
  | threadGc | threadNonGc => true
  | gc | nonGc => false

/-- The name of a kind. -/
def name : BlockKind → String
  | gc => "GcStatics"
  | nonGc => "NonGcStatics"
  | threadGc => "ThreadGcStatics"
  | threadNonGc => "ThreadNonGcStatics"

/-- The kind with a name. -/
def ofName? (text : String) : Option BlockKind := all.find? (·.name == text)

/-- A kind is determined by its two properties. -/
theorem select_isGc_isThreadLocal (kind : BlockKind) : select kind.isGc kind.isThreadLocal = kind := by
  cases kind <;> rfl

/-- The selected block is scanned by the collector when it was asked for. -/
theorem isGc_select (isGc isThreadLocal : Bool) : (select isGc isThreadLocal).isGc = isGc := by
  cases isGc <;> cases isThreadLocal <;> rfl

/-- The selected block is one of a thread when it was asked for. -/
theorem isThreadLocal_select (isGc isThreadLocal : Bool) :
    (select isGc isThreadLocal).isThreadLocal = isThreadLocal := by
  cases isGc <;> cases isThreadLocal <;> rfl

/-- A name is read back as its kind. -/
theorem ofName?_name (kind : BlockKind) : ofName? kind.name = some kind := by
  cases kind <;> decide

end BlockKind

/-- The final size of a block and the alignment that its address needs. -/
structure BlockExtent where
  /-- The bytes in use, reserved ones included. -/
  size : UInt32
  alignment : UInt32
deriving DecidableEq

/-- One value for each kind of block. -/
structure BlockTable (α : Type) where
  gc : α
  nonGc : α
  threadGc : α
  threadNonGc : α
deriving DecidableEq

namespace BlockTable

variable {α β : Type}

/-- The same value for every kind. -/
def const (value : α) : BlockTable α := ⟨value, value, value, value⟩

/-- The value of a kind. -/
def get (table : BlockTable α) : BlockKind → α
  | .gc => table.gc
  | .nonGc => table.nonGc
  | .threadGc => table.threadGc
  | .threadNonGc => table.threadNonGc

/-- The table with another value for one kind. -/
def set (table : BlockTable α) (kind : BlockKind) (value : α) : BlockTable α :=
  match kind with
  | .gc => { table with gc := value }
  | .nonGc => { table with nonGc := value }
  | .threadGc => { table with threadGc := value }
  | .threadNonGc => { table with threadNonGc := value }

/-- The table with every value changed. -/
def map (change : α → β) (table : BlockTable α) : BlockTable β :=
  ⟨change table.gc, change table.nonGc, change table.threadGc, change table.threadNonGc⟩

/-- The values in the order of `BlockKind.all`. -/
def toList (table : BlockTable α) : List α :=
  [table.gc, table.nonGc, table.threadGc, table.threadNonGc]

/-- The table with the values of a list, which must be as many as there are kinds. -/
def ofList? : List α → Option (BlockTable α)
  | [gc, nonGc, threadGc, threadNonGc] => some ⟨gc, nonGc, threadGc, threadNonGc⟩
  | _ => none

/-- The value last put under a kind is found there, and every other kind keeps its own. -/
theorem get_set (table : BlockTable α) (kind other : BlockKind) (value : α) :
    (table.set kind value).get other = if other = kind then value else table.get other := by
  cases kind <;> cases other <;> rfl

/-- Every value of a changed table is the changed value. -/
theorem get_map (change : α → β) (table : BlockTable α) (kind : BlockKind) :
    (table.map change).get kind = change (table.get kind) := by
  cases kind <;> rfl

/-- Tables with the same values are equal. -/
theorem ext_get {a b : BlockTable α} (h : ∀ kind, a.get kind = b.get kind) : a = b := by
  obtain ⟨_, _, _, _⟩ := a
  obtain ⟨_, _, _, _⟩ := b
  have hgc := h .gc
  have hnonGc := h .nonGc
  have hthreadGc := h .threadGc
  have hthreadNonGc := h .threadNonGc
  simp only [get] at hgc hnonGc hthreadGc hthreadNonGc
  subst hgc hnonGc hthreadGc hthreadNonGc
  rfl

/-- A table is read back from the list of its values. -/
theorem ofList?_toList (table : BlockTable α) : ofList? table.toList = some table := rfl

end BlockTable

end StaticStorage
