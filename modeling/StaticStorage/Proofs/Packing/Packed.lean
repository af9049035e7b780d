import Mathlib.Order.Bounds.Basic
import StaticStorage.Layout.Slot

/-!
# Slots packed into one block

`Packed` says what it means to fill a single block: every slot lies at the least multiple of its
alignment that is not below the end of the slot before it, so that no byte is lost but to alignment.
The relation knows one block only, and natural numbers only. It is what the walk over a module, with
its four checked counters, is compared with.

* `isLeast_of_alignUp?` — the checked aligning of words finds that least multiple.
* `Packed.getElem_bounds` — a packed slot is aligned and lies between the two ends of the block.
* `Packed.getElem_le_getElem` — of two packed slots the earlier one ends before the later one begins.
* `Packed.eq_map_range` — slots of one width, each aligned to it, form an array.
-/

namespace StaticStorage

/-! ## The least multiple that is not below a number -/

/-- A number that is not a multiple is rounded up by what its remainder lacks. -/
private theorem isLeast_add_sub_mod {n a : ℕ} (ha : 0 < a) (hn : n % a ≠ 0) :
    IsLeast {k | a ∣ k ∧ n ≤ k} (n + (a - n % a)) := by
  have hmod : n % a < a := Nat.mod_lt n ha
  have hdvd : a ∣ n + (a - n % a) := by
    have hsplit : n + (a - n % a) = a * (n / a) + a := by
      have := Nat.div_add_mod n a
      omega
    rw [hsplit]
    exact Nat.dvd_add (Nat.dvd_mul_right a (n / a)) (Nat.dvd_refl a)
  refine ⟨⟨hdvd, Nat.le_add_right _ _⟩, ?_⟩
  rintro k ⟨hk, hle⟩
  exact Nat.le_of_lt_add_of_dvd (by omega) hdvd hk

/-- Aligning a word, when it succeeds, finds the least multiple that is not below it. -/
theorem Word.isLeast_of_alignUp? {n a c : UInt32} (h : Word.alignUp? n a = some c) :
    IsLeast {k | a.toNat ∣ k ∧ n.toNat ≤ k} c.toNat := by
  unfold Word.alignUp? at h
  split at h
  · next hrem =>
    obtain rfl := Option.some.inj h
    have hdvd : a.toNat ∣ n.toNat := by
      rw [Nat.dvd_iff_mod_eq_zero, ← UInt32.toNat_mod, hrem, UInt32.toNat_zero]
    exact ⟨⟨hdvd, Nat.le_refl _⟩, fun k hk => hk.2⟩
  · next hrem =>
    have hrem' : n.toNat % a.toNat ≠ 0 := by
      rw [← UInt32.toNat_mod]
      exact fun hzero => hrem (UInt32.toNat_inj.1 hzero)
    have hsum := Word.add?_eq_some_iff.1 h
    have hc := c.toNat_lt_size
    -- a word is its own remainder by zero, and what is missing to the next multiple of zero overflows
    have ha : 0 < a.toNat := by
      rcases Nat.eq_zero_or_pos a.toNat with hzero | hpos
      · exfalso
        rw [UInt32.toNat_sub, UInt32.toNat_mod, hzero, Nat.mod_zero] at hsum
        have hn : n.toNat ≠ 0 := by rwa [hzero, Nat.mod_zero] at hrem'
        have := n.toNat_lt_size
        simp only [UInt32.size] at hc this
        omega
      · exact hpos
    have hlt : n.toNat % a.toNat < a.toNat := Nat.mod_lt _ ha
    have hmod : n % a ≤ a := by
      rw [UInt32.le_iff_toNat_le, UInt32.toNat_mod]
      omega
    rw [UInt32.toNat_sub_of_le _ _ hmod, UInt32.toNat_mod] at hsum
    rw [hsum]
    exact isLeast_add_sub_mod ha hrem'

/-! ## One block -/

/-- Slots one behind the other in a block that is filled up to `start`: each slot lies at the least
multiple of its alignment that is not below the end of the one before it. The last one ends at `stop`. -/
inductive Packed : ℕ → List Slot → List ℕ → ℕ → Prop
  | nil (start : ℕ) : Packed start [] [] start
  | cons {start stop offset : ℕ} {slot : Slot} {slots : List Slot} {offsets : List ℕ}
      (least : IsLeast {k | slot.alignment.toNat ∣ k ∧ start ≤ k} offset)
      (rest : Packed (offset + slot.size.toNat) slots offsets stop) :
      Packed start (slot :: slots) (offset :: offsets) stop

namespace Packed

variable {start stop : ℕ} {slots : List Slot} {offsets : List ℕ}

/-- Every slot has its place. -/
theorem length_eq (h : Packed start slots offsets stop) : slots.length = offsets.length := by
  induction h with
  | nil => rfl
  | cons _ _ ih => rw [List.length_cons, List.length_cons, ih]

/-- Packing never gives bytes back. -/
theorem start_le_stop (h : Packed start slots offsets stop) : start ≤ stop := by
  induction h with
  | nil => exact Nat.le_refl _
  | cons least _ ih =>
    obtain ⟨-, hle⟩ := least.1
    omega

/-- A packed slot is aligned and lies between the two ends of the block. -/
theorem getElem_bounds (h : Packed start slots offsets stop) {i : ℕ} (hs : i < slots.length)
    (ho : i < offsets.length) :
    slots[i].alignment.toNat ∣ offsets[i] ∧ start ≤ offsets[i]
      ∧ offsets[i] + slots[i].size.toNat ≤ stop := by
  induction h generalizing i with
  | nil => exact absurd hs (Nat.not_lt_zero _)
  | cons least rest ih =>
    obtain ⟨hdvd, hle⟩ := least.1
    cases i with
    | zero => exact ⟨hdvd, hle, rest.start_le_stop⟩
    | succ i =>
      obtain ⟨hdvd', hle', hstop⟩ := ih (Nat.lt_of_succ_lt_succ hs) (Nat.lt_of_succ_lt_succ ho)
      exact ⟨hdvd', by simp only [List.getElem_cons_succ]; omega, hstop⟩

/-- Of two packed slots the earlier one ends before the later one begins. -/
theorem getElem_le_getElem (h : Packed start slots offsets stop) {i j : ℕ} (hij : i < j)
    (hs : i < slots.length) (ho : j < offsets.length) :
    offsets[i] + slots[i].size.toNat ≤ offsets[j] := by
  induction h generalizing i j with
  | nil => exact absurd hs (Nat.not_lt_zero _)
  | cons least rest ih =>
    obtain ⟨j, rfl⟩ : ∃ k, j = k + 1 := ⟨j - 1, by omega⟩
    have hj := Nat.lt_of_succ_lt_succ ho
    cases i with
    | zero => exact (rest.getElem_bounds (rest.length_eq ▸ hj) hj).2.1
    | succ i => exact ih (Nat.lt_of_succ_lt_succ hij) (Nat.lt_of_succ_lt_succ hs) hj

/-- Slots of one width that are aligned to it form an array, for aligning never skips a byte. -/
theorem eq_map_range (h : Packed start slots offsets stop) {width : ℕ} (hstart : width ∣ start)
    (hslots : ∀ slot ∈ slots, slot.alignment.toNat = width ∧ slot.size.toNat = width) :
    offsets = (List.range slots.length).map (fun i => start + i * width) ∧
      stop = start + slots.length * width := by
  induction h with
  | nil => simp
  | @cons start stop offset slot slots offsets least _ ih =>
    obtain ⟨halignment, hsize⟩ := hslots slot List.mem_cons_self
    obtain rfl : offset = start := by
      have hself : IsLeast {k | slot.alignment.toNat ∣ k ∧ start ≤ k} start :=
        ⟨⟨halignment ▸ hstart, Nat.le_refl start⟩, fun k hk => hk.2⟩
      exact least.unique hself
    rw [hsize] at ih
    obtain ⟨hoffsets, hstop⟩ := ih (Nat.dvd_add hstart (Nat.dvd_refl width))
      fun slot hslot => hslots slot (List.mem_cons_of_mem _ hslot)
    have hnext (i : ℕ) : offset + width + i * width = offset + (i + 1) * width := by
      rw [Nat.succ_mul]
      omega
    rw [hoffsets, hstop, List.length_cons, List.range_succ_eq_map, List.map_cons, List.map_map,
      Nat.zero_mul, Nat.add_zero]
    exact ⟨congrArg (offset :: ·) (List.map_congr_left fun i _ => hnext i), hnext slots.length⟩

end Packed

end StaticStorage
