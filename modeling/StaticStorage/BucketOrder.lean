/-!
# The order of a hash table

A table with open addressing lists its rows bucket by bucket. A row has a home bucket, which follows from its
number, and takes the first bucket from there on that is free. So the order depends on which rows came first, and
need not be the same in two tables of the same rows.

Buckets are probed in groups. Table sizes are powers of two; a table without room for another row is replaced by
one of twice its size, which takes the rows over in the order in which they are listed.

* `BucketTable.perm_listed_fill` — a table lists just the entries that were entered.
-/

namespace StaticStorage

/-- A hash table from rows, without removals. -/
structure BucketTable (α : Type) where
  buckets : Array (Option (UInt32 × α))
  /-- The number of buckets in use. -/
  used : Nat

namespace BucketTable

variable {α : Type}

/-! ## Probing -/

/-- The number of buckets that are probed at once. -/
def groupSize : Nat := 16

/-- The hash of a row. -/
def hash (row : UInt32) : UInt64 :=
  let product := row.toUInt64 * 0xf1357aea2e62a9c5
  product <<< 26 ||| product >>> 38

/-- The first free bucket among so many from a position on; behind the last bucket comes the first. -/
def freeFrom? (buckets : Array (Option (UInt32 × α))) (position : Nat) : Nat → Option Nat
  | 0 => none
  | count + 1 =>
    match buckets[position % buckets.size]? with
    | some none => some (position % buckets.size)
    | _ => freeFrom? buckets (position + 1) count

/-- The first free bucket in so many groups, each of which lies farther behind the one before. -/
def probe? (buckets : Array (Option (UInt32 × α))) (position stride : Nat) : Nat → Option Nat
  | 0 => none
  | groups + 1 =>
    match freeFrom? buckets position (min groupSize buckets.size) with
    | some bucket => some bucket
    | none => probe? buckets (position + stride) (stride + groupSize) groups

/-- The bucket for a new row. -/
def bucketFor? (t : BucketTable α) (row : UInt32) : Option Nat :=
  probe? t.buckets ((hash row).toNat % t.buckets.size) groupSize (t.buckets.size / groupSize + 1)

/-! ## Entering rows -/

/-- A table of a given size with nothing in it. -/
def ofSize (size : Nat) : BucketTable α := ⟨.replicate size none, 0⟩

/-- The smallest table. -/
def empty : BucketTable α := ofSize 4

/-- The entries, bucket by bucket. -/
def listed (t : BucketTable α) : List (UInt32 × α) := t.buckets.toList.filterMap id

/-- The number of rows that a table has room for. Some buckets always stay free. -/
def capacity (t : BucketTable α) : Nat :=
  if t.buckets.size < 8 then t.buckets.size - 1 else t.buckets.size / 8 * 7

/-- Put an entry with a new row into its bucket. -/
def put (t : BucketTable α) (entry : UInt32 × α) : BucketTable α :=
  match t.bucketFor? entry.1 with
  | some bucket => ⟨t.buckets.setIfInBounds bucket (some entry), t.used + 1⟩
  -- does not happen, since some buckets are free and probing comes to all of them
  | none => ⟨t.buckets.push (some entry), t.used + 1⟩

/-- The table of twice the size that takes the entries over. -/
def grow (t : BucketTable α) : BucketTable α := t.listed.foldl put (ofSize (2 * t.buckets.size))

/-- Enter an entry with a new row. -/
def enter (t : BucketTable α) (entry : UInt32 × α) : BucketTable α :=
  if t.used < t.capacity then t.put entry else t.grow.put entry

/-- The table of entries with rows of their own, entered one after the other. -/
def fill (entries : List (UInt32 × α)) : BucketTable α := entries.foldl enter empty

/-! ## What is listed -/

theorem listed_ofSize (size : Nat) : (ofSize size : BucketTable α).listed = [] := by
  simp [listed, ofSize]

/-- The bucket that is found is free. -/
theorem getElem?_of_freeFrom?_eq_some {buckets : Array (Option (UInt32 × α))} {position count bucket : Nat}
    (h : freeFrom? buckets position count = some bucket) : buckets[bucket]? = some none := by
  induction count generalizing position with
  | zero => cases h
  | succ count ih =>
    unfold freeFrom? at h
    split at h
    · next hfree =>
      cases h
      exact hfree
    · exact ih h

theorem getElem?_of_probe?_eq_some {buckets : Array (Option (UInt32 × α))}
    {position stride groups bucket : Nat} (h : probe? buckets position stride groups = some bucket) :
    buckets[bucket]? = some none := by
  induction groups generalizing position stride with
  | zero => cases h
  | succ groups ih =>
    unfold probe? at h
    split at h
    · next hfound =>
      cases h
      exact getElem?_of_freeFrom?_eq_some hfound
    · exact ih h

/-- What is put into a free place is listed once more than before. -/
theorem perm_filterMap_set {places : List (Option α)} {n : Nat} (value : α) (h : places[n]? = some none) :
    ((places.set n (some value)).filterMap id).Perm (value :: places.filterMap id) := by
  induction places generalizing n with
  | nil => cases h
  | cons place rest ih =>
    cases n with
    | zero =>
      obtain rfl : place = none := by simpa using h
      exact .refl _
    | succ n =>
      have hrest := ih (by simpa using h)
      cases place with
      | none => exact hrest
      | some other => exact (hrest.cons other).trans (.swap value other _)

theorem perm_listed_put (t : BucketTable α) (entry : UInt32 × α) :
    (t.put entry).listed.Perm (entry :: t.listed) := by
  unfold put listed
  split
  · next bucket hfound =>
    have hfree : t.buckets.toList[bucket]? = some none := by
      rw [Array.getElem?_toList]
      exact getElem?_of_probe?_eq_some hfound
    rw [Array.toList_setIfInBounds]
    exact perm_filterMap_set entry hfree
  · rw [Array.toList_push, List.filterMap_append]
    exact List.perm_append_singleton entry _

/-- Putting entries into a table one after the other adds just these. -/
theorem perm_listed_foldl {step : BucketTable α → UInt32 × α → BucketTable α}
    (hstep : ∀ t entry, (step t entry).listed.Perm (entry :: t.listed)) (entries : List (UInt32 × α))
    (t : BucketTable α) : (entries.foldl step t).listed.Perm (entries ++ t.listed) := by
  induction entries generalizing t with
  | nil => exact .refl _
  | cons entry rest ih =>
    have hmiddle : (rest ++ entry :: t.listed).Perm (entry :: (rest ++ t.listed)) := List.perm_middle
    exact (ih (step t entry)).trans (((hstep t entry).append_left rest).trans hmiddle)

theorem perm_listed_grow (t : BucketTable α) : t.grow.listed.Perm t.listed := by
  have hfold := perm_listed_foldl perm_listed_put t.listed (ofSize (2 * t.buckets.size))
  rwa [listed_ofSize, List.append_nil] at hfold

theorem perm_listed_enter (t : BucketTable α) (entry : UInt32 × α) :
    (t.enter entry).listed.Perm (entry :: t.listed) := by
  unfold enter
  split
  · exact t.perm_listed_put entry
  · exact (t.grow.perm_listed_put entry).trans (t.perm_listed_grow.cons entry)

/-- A table lists just the entries that were entered. -/
theorem perm_listed_fill (entries : List (UInt32 × α)) : (fill entries).listed.Perm entries := by
  have hfold := perm_listed_foldl perm_listed_enter entries (empty : BucketTable α)
  rwa [empty, listed_ofSize, List.append_nil] at hfold

-- the rows 1 and 2 have one home, the last of the smallest table
example :
    (fill [(1, ()), (2, ())]).listed = [(2, ()), (1, ())] ∧
      (fill [(2, ()), (1, ())]).listed = [(1, ()), (2, ())] := by
  decide

end BucketTable

end StaticStorage
