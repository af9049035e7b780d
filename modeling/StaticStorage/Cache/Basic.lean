import StaticStorage.Layout.Packing

/-!
# The layout cache

A cache keeps the layouts of modules by the modules' identities. The first layout published for an
identity stays: no later request replaces or removes it, whatever the module behind that request holds.
Nothing is published for a module without a layout, so that the next request computes it again.

* `Cache.get?_publish` — publishing changes what is published under one identity, and only if nothing was.
* `Cache.getOrCreate_cases` — everything that a request can come to.
-/

namespace StaticStorage

/-- Published layouts, and the options under which layouts are computed. -/
structure Cache where
  options : LayoutOptions
  published : WordMap Layout
deriving DecidableEq

namespace Cache

/-- A cache without layouts. -/
def empty (options : LayoutOptions) : Cache := ⟨options, .empty⟩

/-- The layout published for an identity. -/
def get? (c : Cache) (id : ModuleId) : Option Layout := c.published.get? id.raw

/-- Is a layout published for the identity? -/
def contains (c : Cache) (id : ModuleId) : Bool := c.published.contains id.raw

/-- The number of published layouts. -/
def size (c : Cache) : Nat := c.published.size

/-- Is nothing published? -/
def isEmpty (c : Cache) : Bool := c.size == 0

/-- Publish a layout for an identity, unless one is published already; the one that counts is returned. -/
def publish (c : Cache) (id : ModuleId) (l : Layout) : Layout × Cache :=
  match c.get? id with
  | some first => (first, c)
  | none => (l, { c with published := c.published.insert id.raw l })

/-- Compute the layout of a module and publish it. -/
def fill (c : Cache) (m : Module) : Except LayoutError Layout × Cache :=
  match m.layout c.options with
  | .error e => (.error e, c)
  | .ok l =>
    let (first, c) := c.publish m.id l
    (.ok first, c)

/-- The layout of a module, computed and published by the first request. -/
def getOrCreate (c : Cache) (m : Module) : Except LayoutError Layout × Cache :=
  match c.get? m.id with
  | some l => (.ok l, c)
  | none => c.fill m

/-- The layout of one type of a module. A generic type has no part in the layout of its module, which is
not even asked for. -/
def typeLayout (c : Cache) (m : Module) (t : TypeId) : Except LayoutError TypeLayout × Cache :=
  if m.isGeneric t then (.ok .none, c)
  else
    let (answer, c) := c.getOrCreate m
    (answer.map fun l => .ofLayout l t, c)

/-- Request the layouts of many modules in turn, up to the first module that has none. -/
def requestAll (c : Cache) : List Module → Except LayoutError Unit × Cache
  | [] => (.ok (), c)
  | m :: rest =>
    match c.getOrCreate m with
    | (.ok _, c) => c.requestAll rest
    | (.error e, c) => (.error e, c)

theorem get?_empty (options : LayoutOptions) (id : ModuleId) : (empty options).get? id = none := rfl

/-- Publishing a layout changes nothing where a layout is published already. -/
theorem publish_of_get?_eq_some {c : Cache} {id : ModuleId} {first : Layout} (l : Layout)
    (h : c.get? id = some first) : c.publish id l = (first, c) := by
  rw [publish, h]

/-- The first layout for an identity is published as it is. -/
theorem publish_of_get?_eq_none {c : Cache} {id : ModuleId} (l : Layout) (h : c.get? id = none) :
    c.publish id l = (l, { c with published := c.published.insert id.raw l }) := by
  rw [publish, h]

/-- After a publication the layout that counts is found under its identity, and all other identities keep
what they had. -/
theorem get?_publish (c : Cache) (id k : ModuleId) (l : Layout) :
    (c.publish id l).2.get? k = if k = id then some (c.publish id l).1 else c.get? k := by
  cases hfirst : c.get? id with
  | some first =>
    rw [publish_of_get?_eq_some l hfirst]
    split
    · next hk => rw [hk, hfirst]
    · rfl
  | none =>
    rw [publish_of_get?_eq_none l hfirst]
    unfold get?
    rw [WordMap.get?_insert]
    simp only [show k.raw = id.raw ↔ k = id from ⟨fun h => congrArg ModuleId.mk h, fun h => h ▸ rfl⟩]

/-- Everything that a request can come to: it finds a layout, it fails and changes nothing, or it
publishes the layout that it computed. -/
theorem getOrCreate_cases (c : Cache) (m : Module) :
    (∃ l, c.get? m.id = some l ∧ c.getOrCreate m = (.ok l, c)) ∨
      (∃ e, c.get? m.id = none ∧ m.layout c.options = .error e ∧ c.getOrCreate m = (.error e, c)) ∨
      ∃ l, c.get? m.id = none ∧ m.layout c.options = .ok l ∧
        c.getOrCreate m = (.ok l, (c.publish m.id l).2) := by
  unfold getOrCreate fill
  cases hget : c.get? m.id with
  | some l => exact .inl ⟨l, rfl, rfl⟩
  | none =>
    cases hlayout : m.layout c.options with
    | error e => exact .inr (.inl ⟨e, rfl, rfl, rfl⟩)
    | ok l => exact .inr (.inr ⟨l, rfl, rfl, by simp only [publish_of_get?_eq_none l hget]⟩)

/-- A successful request leaves its layout published. -/
theorem get?_of_getOrCreate_eq_ok {c c' : Cache} {m : Module} {l : Layout}
    (h : c.getOrCreate m = (.ok l, c')) : c'.get? m.id = some l := by
  rcases c.getOrCreate_cases m with ⟨l', hget, heq⟩ | ⟨e, -, -, heq⟩ | ⟨l', hget, -, heq⟩ <;>
    rw [heq] at h
  · obtain ⟨⟨rfl⟩, rfl⟩ := Prod.mk.inj h
    exact hget
  · simp at h
  · obtain ⟨⟨rfl⟩, rfl⟩ := Prod.mk.inj h
    rw [get?_publish, if_pos rfl, publish_of_get?_eq_none _ hget]

/-- A request fails only where nothing is published, and changes nothing. -/
theorem getOrCreate_eq_error {c c' : Cache} {m : Module} {e : LayoutError}
    (h : c.getOrCreate m = (.error e, c')) :
    c.get? m.id = none ∧ m.layout c.options = .error e ∧ c' = c := by
  rcases c.getOrCreate_cases m with ⟨l, -, heq⟩ | ⟨e', hget, hlayout, heq⟩ | ⟨l, -, -, heq⟩ <;>
    rw [heq] at h
  · simp at h
  · obtain ⟨⟨rfl⟩, rfl⟩ := Prod.mk.inj h
    exact ⟨hget, hlayout, rfl⟩
  · simp at h

/-- Requests for two lists go on with the second when the first was answered. -/
theorem requestAll_append (c : Cache) (front rest : List Module) :
    c.requestAll (front ++ rest) =
      match c.requestAll front with
      | (.ok _, c') => c'.requestAll rest
      | (.error e, c') => (.error e, c') := by
  induction front generalizing c with
  | nil => rfl
  | cons m front ih =>
    rw [List.cons_append, requestAll, requestAll]
    rcases c.getOrCreate m with ⟨e | l, c'⟩
    · rfl
    · exact ih c'

/-- The cache as messages show it. -/
def describe (c : Cache) : String :=
  "ModuleLayoutCache \x7b modules: " ++ Decimal.write c.size
    ++ ", options: LayoutOptions \x7b maximum_primitive_size: "
    ++ Decimal.write c.options.largestPrimitive.toNat ++ " \x7d \x7d"

end Cache

end StaticStorage
