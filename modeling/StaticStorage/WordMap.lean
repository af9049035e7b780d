/-!
# Finite maps with word keys

A map is the list of its entries in strictly ascending order of their keys. Order is part of the type, so
two maps with the same entries are the same value, and listing a map lists its keys in ascending order.

* `get?_insert` — an inserted entry is found under its key, and all other keys keep what they had.
* `get?_collect` — a key that was given values has all of them, in the order in which they were given.
* `flatMap_entries_collect` — values given in the order of their keys are listed as they were given.
* `ext_get?` — maps that answer every look-up alike are equal.
* `entries_ofList` — a list that is in ascending order already is the map's list of entries.
-/

namespace StaticStorage

/-- A finite map from words, as its entries in ascending order. -/
structure WordMap (α : Type) where
  entries : List (UInt32 × α)
  ascending : entries.Pairwise (fun a b => a.1 < b.1) := by simp
deriving DecidableEq

namespace WordMap

variable {α : Type}

/-- The map without entries. -/
def empty : WordMap α := ⟨[], .nil⟩

/-- The entry of a key. -/
def get? (m : WordMap α) (key : UInt32) : Option α := m.entries.lookup key

/-- Does the key have an entry? -/
def contains (m : WordMap α) (key : UInt32) : Bool := (m.get? key).isSome

/-- The number of entries. -/
def size (m : WordMap α) : Nat := m.entries.length

/-- The keys in ascending order. -/
def keys (m : WordMap α) : List UInt32 := m.entries.map (·.1)

/-- Put an entry in front of the first larger key, in place of an entry with the same key. -/
def insertEntry (key : UInt32) (value : α) : List (UInt32 × α) → List (UInt32 × α)
  | [] => [(key, value)]
  | (k, v) :: rest =>
    if key < k then (key, value) :: (k, v) :: rest
    else if key = k then (key, value) :: rest
    else (k, v) :: insertEntry key value rest

/-- A key of the longer list is the new key or was there before. -/
theorem mem_insertEntry {key : UInt32} {value : α} {entry : UInt32 × α} {l : List (UInt32 × α)}
    (h : entry ∈ insertEntry key value l) : entry = (key, value) ∨ entry ∈ l := by
  induction l with
  | nil => simpa [insertEntry] using h
  | cons head rest ih =>
    obtain ⟨k, v⟩ := head
    unfold insertEntry at h
    split at h
    · simpa using h
    · split at h
      · rcases List.mem_cons.1 h with rfl | h
        · exact .inl rfl
        · exact .inr (List.mem_cons_of_mem _ h)
      · rcases List.mem_cons.1 h with rfl | h
        · exact .inr List.mem_cons_self
        · exact (ih h).imp_right (List.mem_cons_of_mem _)

/-- Insertion keeps the entries in ascending order. -/
theorem ascending_insertEntry {key : UInt32} {value : α} {l : List (UInt32 × α)}
    (h : l.Pairwise (fun a b => a.1 < b.1)) :
    (insertEntry key value l).Pairwise (fun a b => a.1 < b.1) := by
  induction l with
  | nil => simp [insertEntry]
  | cons head rest ih =>
    obtain ⟨k, v⟩ := head
    obtain ⟨habove, htail⟩ := List.pairwise_cons.1 h
    unfold insertEntry
    split
    · next hlt =>
      refine List.pairwise_cons.2 ⟨fun entry hentry => ?_, h⟩
      rcases List.mem_cons.1 hentry with rfl | hentry
      · exact hlt
      · exact UInt32.lt_trans hlt (habove entry hentry)
    · split
      · next heq => exact List.pairwise_cons.2 ⟨fun entry hentry => heq ▸ habove entry hentry, htail⟩
      · next hge hne =>
        refine List.pairwise_cons.2 ⟨fun entry hentry => ?_, ih htail⟩
        rcases mem_insertEntry hentry with rfl | hentry
        · exact UInt32.lt_of_le_of_ne (UInt32.not_lt.1 hge) (Ne.symm hne)
        · exact habove entry hentry

/-- The map with an entry for `key`, in place of the one it had. -/
def insert (m : WordMap α) (key : UInt32) (value : α) : WordMap α :=
  ⟨insertEntry key value m.entries, ascending_insertEntry m.ascending⟩

/-- The map of a list of entries. Of several entries with one key the first counts. -/
def ofList (l : List (UInt32 × α)) : WordMap α :=
  l.foldr (fun entry m => m.insert entry.1 entry.2) empty

/-- The map that lists all values given for a key, in the order in which they are given. -/
def collect (l : List (UInt32 × α)) : WordMap (List α) :=
  l.foldr (fun entry m =>
    m.insert entry.1 (entry.2 :: (m.get? entry.1).getD [])) empty

/-! ## Look-up -/

/-- A list answers with its first entry for the key that is asked for. -/
theorem lookup_cons_eq_ite (k key : UInt32) (value : α) (rest : List (UInt32 × α)) :
    ((key, value) :: rest).lookup k = if k = key then some value else rest.lookup k := by
  rw [List.lookup_cons]
  by_cases h : k = key
  · rw [if_pos h, show (k == key) = true from beq_iff_eq.2 h]
  · rw [if_neg h, show (k == key) = false from beq_eq_false_iff_ne.2 h]

/-- The look-up in a list after insertion. -/
theorem lookup_insertEntry (key k : UInt32) (value : α) (l : List (UInt32 × α)) :
    (insertEntry key value l).lookup k = if k = key then some value else l.lookup k := by
  induction l with
  | nil => rw [insertEntry, lookup_cons_eq_ite]
  | cons head rest ih =>
    obtain ⟨k', v⟩ := head
    unfold insertEntry
    split
    · rw [lookup_cons_eq_ite]
    · split
      · next heq =>
        subst heq
        rw [lookup_cons_eq_ite, lookup_cons_eq_ite]
        by_cases h : k = key <;> simp only [h, if_true, if_false]
      · next hne =>
        rw [lookup_cons_eq_ite, lookup_cons_eq_ite, ih]
        by_cases h : k = k'
        · subst h
          rw [if_pos rfl, if_pos rfl, if_neg (Ne.symm hne)]
        · rw [if_neg h, if_neg h]

/-- An inserted entry is found under its key; all other keys keep what they had. -/
theorem get?_insert (m : WordMap α) (key k : UInt32) (value : α) :
    (m.insert key value).get? k = if k = key then some value else m.get? k :=
  lookup_insertEntry key k value m.entries

/-- The empty map has no entries. -/
theorem get?_empty (key : UInt32) : (empty : WordMap α).get? key = none := rfl

/-- A key below all keys of a list has no entry. -/
theorem lookup_eq_none_of_lt {key : UInt32} {l : List (UInt32 × α)}
    (h : ∀ entry ∈ l, key < entry.1) : l.lookup key = none := by
  induction l with
  | nil => rfl
  | cons head rest ih =>
    obtain ⟨k, v⟩ := head
    have hne : key ≠ k := UInt32.ne_of_lt (h (k, v) List.mem_cons_self)
    rw [lookup_cons_eq_ite, if_neg hne]
    exact ih fun entry hentry => h entry (List.mem_cons_of_mem _ hentry)

/-- No key below the first of an ascending list has an entry. -/
theorem lookup_cons_eq_none_of_lt {key : UInt32} {head : UInt32 × α} {rest : List (UInt32 × α)}
    (h : (head :: rest).Pairwise fun a b => a.1 < b.1) (hlt : key < head.1) :
    (head :: rest).lookup key = none := by
  refine lookup_eq_none_of_lt fun entry hentry => ?_
  rcases List.mem_cons.1 hentry with rfl | hentry
  · exact hlt
  · exact UInt32.lt_trans hlt ((List.pairwise_cons.1 h).1 entry hentry)

/-- The entry of a key is the one that the list of entries holds for it. -/
theorem get?_eq_some_iff (m : WordMap α) {key : UInt32} {value : α} :
    m.get? key = some value ↔ (key, value) ∈ m.entries := by
  obtain ⟨l, hascending⟩ := m
  show l.lookup key = some value ↔ (key, value) ∈ l
  induction l with
  | nil => simp
  | cons head rest ih =>
    obtain ⟨k, v⟩ := head
    obtain ⟨habove, htail⟩ := List.pairwise_cons.1 hascending
    rw [lookup_cons_eq_ite, List.mem_cons]
    by_cases h : key = k
    · subst h
      have habsent : (key, value) ∉ rest := fun hmem => UInt32.lt_irrefl _ (habove (key, value) hmem)
      simp [habsent, eq_comm]
    · rw [if_neg h, ih htail]
      simp [h]

/-- Maps that answer every look-up alike are equal. -/
theorem ext_get? {a b : WordMap α} (h : ∀ key, a.get? key = b.get? key) : a = b := by
  obtain ⟨la, ha⟩ := a
  obtain ⟨lb, hb⟩ := b
  suffices heq : la = lb by
    subst heq
    rfl
  have hlookup : ∀ key, la.lookup key = lb.lookup key := h
  clear h
  induction la generalizing lb with
  | nil =>
    cases lb with
    | nil => rfl
    | cons head rest =>
      have hfirst := hlookup head.1
      rw [lookup_cons_eq_ite, if_pos rfl] at hfirst
      cases hfirst
  | cons head rest ih =>
    obtain ⟨k, v⟩ := head
    obtain ⟨habove, htail⟩ := List.pairwise_cons.1 ha
    cases lb with
    | nil =>
      have hfirst := hlookup k
      rw [lookup_cons_eq_ite, if_pos rfl] at hfirst
      cases hfirst
    | cons head' rest' =>
      obtain ⟨k', v'⟩ := head'
      obtain ⟨habove', htail'⟩ := List.pairwise_cons.1 hb
      have hk : k = k' := by
        apply UInt32.le_antisymm
        · refine UInt32.not_lt.1 fun hlt => ?_
          have hfirst := hlookup k'
          rw [lookup_cons_eq_none_of_lt ha hlt, lookup_cons_eq_ite, if_pos rfl] at hfirst
          cases hfirst
        · refine UInt32.not_lt.1 fun hlt => ?_
          have hfirst := hlookup k
          rw [lookup_cons_eq_none_of_lt hb hlt, lookup_cons_eq_ite, if_pos rfl] at hfirst
          cases hfirst
      subst hk
      have hvalue := hlookup k
      rw [lookup_cons_eq_ite, lookup_cons_eq_ite, if_pos rfl, if_pos rfl] at hvalue
      cases hvalue
      congr 1
      refine ih htail rest' htail' fun key => ?_
      have hother := hlookup key
      rw [lookup_cons_eq_ite, lookup_cons_eq_ite] at hother
      by_cases hkey : key = k
      · subst hkey
        rw [lookup_eq_none_of_lt habove, lookup_eq_none_of_lt habove']
      · rwa [if_neg hkey, if_neg hkey] at hother

/-- A list in ascending order is the list of its map's entries. -/
theorem entries_ofList {l : List (UInt32 × α)} (h : l.Pairwise (fun a b => a.1 < b.1)) :
    (ofList l).entries = l := by
  induction l with
  | nil => rfl
  | cons head rest ih =>
    obtain ⟨habove, htail⟩ := List.pairwise_cons.1 h
    have hunfold : (ofList (head :: rest)).entries
        = insertEntry head.1 head.2 (ofList rest).entries := rfl
    rw [hunfold, ih htail]
    cases rest with
    | nil => rfl
    | cons next _ =>
      obtain ⟨k, v⟩ := next
      rw [insertEntry, if_pos (habove (k, v) List.mem_cons_self)]

/-- A key that was given values has all of them, and a key that was given none has no entry. -/
theorem get?_collect (l : List (UInt32 × α)) (key : UInt32) :
    (collect l).get? key =
      if ∃ entry ∈ l, entry.1 = key then some ((l.filter (·.1 = key)).map (·.2)) else none := by
  induction l with
  | nil => simp [collect, get?_empty]
  | cons head rest ih =>
    obtain ⟨k, v⟩ := head
    have hunfold : collect ((k, v) :: rest) =
        (collect rest).insert k (v :: ((collect rest).get? k).getD []) := rfl
    rw [hunfold, get?_insert]
    by_cases hkey : key = k
    · subst hkey
      rw [if_pos rfl, if_pos ⟨(key, v), List.mem_cons_self, rfl⟩, ih]
      by_cases hmore : ∃ entry ∈ rest, entry.1 = key
      · rw [if_pos hmore]
        simp
      · rw [if_neg hmore]
        have habsent : rest.filter (·.1 = key) = [] :=
          List.filter_eq_nil_iff.2 fun entry hmem => by
            simpa using fun heq => hmore ⟨entry, hmem, heq⟩
        simp [habsent]
    · have hgiven : (∃ entry ∈ (k, v) :: rest, entry.1 = key) ↔ ∃ entry ∈ rest, entry.1 = key := by
        simp [Ne.symm hkey]
      rw [if_neg hkey, ih, List.filter_cons_of_neg (by simpa using Ne.symm hkey)]
      simp only [hgiven]

/-- A key that was collected is the key of a value that was given. -/
theorem exists_mem_of_mem_entries_collect {l : List (UInt32 × α)} {key : UInt32} {values : List α}
    (h : (key, values) ∈ (collect l).entries) : ∃ entry ∈ l, entry.1 = key := by
  have hget := (get?_eq_some_iff _).2 h
  rw [get?_collect] at hget
  split at hget
  · assumption
  · cases hget

/-- Values that are given in the order of their keys are listed, key by key, as they were given. -/
theorem flatMap_entries_collect {l : List (UInt32 × α)} (h : l.Pairwise fun a b => a.1 ≤ b.1) :
    (collect l).entries.flatMap (fun entry => entry.2.map fun value => (entry.1, value)) = l := by
  induction l with
  | nil => rfl
  | cons head rest ih =>
    obtain ⟨k, v⟩ := head
    obtain ⟨habove, htail⟩ := List.pairwise_cons.1 h
    have hrest := ih htail
    have hunfold : (collect ((k, v) :: rest)).entries =
        insertEntry k (v :: ((collect rest).get? k).getD []) (collect rest).entries := rfl
    rw [hunfold]
    have hkeys : ∀ entry ∈ (collect rest).entries, k ≤ entry.1 := by
      intro entry hentry
      obtain ⟨given, hgiven, hkey⟩ := exists_mem_of_mem_entries_collect hentry
      exact hkey ▸ habove given hgiven
    have hget : (collect rest).get? k = (collect rest).entries.lookup k := rfl
    rw [hget]
    -- only the first entry can have the new key, since no entry has a smaller one
    rcases hentries : (collect rest).entries with _ | ⟨⟨k', vs⟩, more⟩
    · rw [hentries] at hrest
      rw [← hrest]
      rfl
    · have hasc := (collect rest).ascending
      rw [hentries] at hrest hkeys hasc
      by_cases hlt : k < k'
      · rw [lookup_cons_eq_none_of_lt hasc hlt, insertEntry, if_pos hlt, List.flatMap_cons, hrest]
        rfl
      · have hk : k = k' :=
          UInt32.le_antisymm (hkeys (k', vs) List.mem_cons_self) (UInt32.not_lt.1 hlt)
        subst hk
        rw [lookup_cons_eq_ite, if_pos rfl, insertEntry, if_neg hlt, if_pos rfl, Option.getD_some,
          ← hrest]
        rfl

end WordMap

end StaticStorage
