import OpenFronthaul.Proofs.Steps
import OpenFronthaul.Section.Store
import Mathlib.Tactic

/-!
# What a change does to the buckets

All buckets of a store lie in one table, and a bucket that was emptied still has its old sections
behind the places in use.  This file takes both out of sight: a bucket is seen as the list of its
sections in use (`Bucket.live`), a store as the function from keys to these lists
(`SectionStore.entries`), and every change of a store is a pointwise update of that function
(`Updates`).
-/

namespace OpenFronthaul

/-! ## One bucket -/

namespace Bucket

variable {capacity : Nat} (b : Bucket capacity)

@[simp] lemma length_live : b.live.length = b.used := by
  simp [live, b.used_le]

@[simp] lemma live_blank : (blank capacity).live = [] := by
  simp [live, blank]

@[simp] lemma live_rewind : b.rewind.live = [] := by
  simp [live, rewind]

lemma claim?_eq_none_iff : b.claim? = none ↔ capacity ≤ b.live.length := by
  simp [claim?]

/-- A claimed place is blank, whatever was written to it before the bucket was emptied. -/
lemma live_of_claim? {b b' : Bucket capacity} (h : b.claim? = some b') :
    b'.live = b.live ++ [default] := by
  unfold claim? at h
  split at h
  case isTrue hlt =>
    obtain rfl := Option.some.inj h
    have hlen : b.used < b.places.toList.length := by simpa using hlt
    simp only [live, Vector.toList_set]
    rw [List.take_succ_eq_append_getElem (by simpa using hlen), List.getElem_set_self,
      List.take_set_of_le le_rfl]
  case isFalse => exact absurd h (by simp)

/-- A change goes to the last section in use. -/
lemma live_amend {b : Bucket capacity} {rest : List Section} {last : Section}
    (h : b.live = rest ++ [last]) (edit : Section → Section) :
    (b.amend edit).live = rest ++ [edit last] := by
  have hused : b.used = rest.length + 1 := by
    simpa using congrArg List.length h
  have hlt : rest.length < capacity := by
    have := b.used_le
    omega
  have hlen : rest.length < b.places.toList.length := by simpa using hlt
  simp only [live, hused] at h
  rw [List.take_succ_eq_append_getElem hlen] at h
  obtain ⟨hrest, hlast⟩ := List.append_inj' h rfl
  have hlast' : b.places[rest.length] = last := by simpa using hlast
  simp only [amend, live, hused, Nat.add_sub_cancel, hlt, dite_true, Vector.toList_set]
  rw [List.take_succ_eq_append_getElem (by simpa using hlen), List.getElem_set_self,
    List.take_set_of_le le_rfl, hrest, hlast']

end Bucket

/-! ## The table of buckets -/

namespace SectionStore

variable {store : SectionStore} {key other : SectionKey}

lemma hasKey_iff : store.hasKey key = true ↔
    key.context.toNat < rotationContexts ∧ key.carrier.toNat < store.carriers ∧
      key.antenna.toNat < store.antennas := by
  simp [hasKey, and_assoc]

/-- A number below a base and a multiple of the base are told from their sum. -/
private lemma eq_of_mul_add_eq {base a b x y : ℕ} (hx : x < base) (hy : y < base)
    (h : a * base + x = b * base + y) : a = b ∧ x = y := by
  have hpos : 0 < base := by omega
  have hdiv := congrArg (· / base) h
  have hmod := congrArg (· % base) h
  simp only [Nat.mul_add_mod', Nat.mod_eq_of_lt hx, Nat.mod_eq_of_lt hy] at hmod
  simp only [Nat.mul_comm _ base, Nat.mul_add_div hpos, Nat.div_eq_of_lt hx,
    Nat.div_eq_of_lt hy, Nat.add_zero] at hdiv
  exact ⟨hdiv, hmod⟩

/-- No two keys share a bucket. -/
lemma bucketIndex_inj (hkey : store.hasKey key = true) (hother : store.hasKey other = true)
    (h : store.bucketIndex key = store.bucketIndex other) : key = other := by
  obtain ⟨-, hcarrier, hantenna⟩ := hasKey_iff.mp hkey
  obtain ⟨-, hcarrier', hantenna'⟩ := hasKey_iff.mp hother
  obtain ⟨h, ha⟩ := eq_of_mul_add_eq hantenna hantenna' h
  obtain ⟨h, hc⟩ := eq_of_mul_add_eq hcarrier hcarrier' h
  obtain ⟨hx, hd⟩ := eq_of_mul_add_eq key.direction.bit_lt other.direction.bit_lt h
  have hdir : key.direction = other.direction := by
    rw [← Direction.ofBit_bit key.direction, hd, Direction.ofBit_bit]
  cases key
  cases other
  simp_all [UInt8.toNat_inj]

lemma entries_eq_live {b : Bucket store.capacity} (h : store.bucket? key = some b) :
    store.entries key = b.live := by
  rw [entries, h]

@[simp] lemma entries_of_not_hasKey (h : store.hasKey key = false) : store.entries key = [] := by
  simp [entries, bucket?, h]

lemma exists_bucket (h : store.hasKey key = true) : ∃ b, store.bucket? key = some b := by
  simp [bucket?, h]

lemma bucket?_eq_none_iff : store.bucket? key = none ↔ store.hasKey key = false := by
  simp [bucket?]

@[simp] lemma size_eq_length : store.size key = (store.entries key).length := by
  rcases h : store.bucket? key with _ | b
  · simp [size, entries, h]
  · simp [size, entries, h]

lemma length_entries_le : (store.entries key).length ≤ store.capacity := by
  rcases h : store.bucket? key with _ | b
  · simp [entries, h]
  · rw [entries_eq_live h, b.length_live]
    exact b.used_le

/-- All buckets of a new store are empty. -/
lemma entries_create {carriers antennas capacity : Nat}
    (h : create carriers antennas capacity = .ok store) (key : SectionKey) :
    store.entries key = [] := by
  rw [create, guard_eq_ok] at h
  obtain rfl := Except.ok.inj h.2
  rw [entries]
  split
  case h_1 b hb =>
    rw [bucket?] at hb
    split_ifs at hb
    obtain rfl := Option.some.inj hb
    simp
  case h_2 => rfl

lemma entries_setBucket_self (h : store.hasKey key = true) (b : Bucket store.capacity) :
    (store.setBucket key b).entries key = b.live := by
  have hk : (store.setBucket key b).hasKey key = true := h
  refine entries_eq_live ?_
  rw [bucket?, dif_pos hk]
  simp only [setBucket, h, dite_true]
  exact congrArg some (Vector.getElem_set_self _)

lemma entries_setBucket_of_ne (hne : other ≠ key) (b : Bucket store.capacity) :
    (store.setBucket key b).entries other = store.entries other := by
  by_cases hother : store.hasKey other = true
  · have hlt := bucketIndex_lt hother
    have hk : (store.setBucket key b).hasKey other = true := hother
    have hb : store.bucket? other = some store.buckets[store.bucketIndex other] := by
      rw [bucket?, dif_pos hother]
    rw [entries_eq_live hb]
    refine entries_eq_live ?_
    rw [bucket?, dif_pos hk]
    by_cases hkey : store.hasKey key = true
    · have hindex : store.bucketIndex key ≠ store.bucketIndex other := fun h =>
        hne (bucketIndex_inj hkey hother h).symm
      simp only [setBucket, hkey, dite_true]
      exact congrArg some (Vector.getElem_set_ne _ _ hindex)
    · simp only [setBucket, dif_neg hkey]
  · have hk : (store.setBucket key b).hasKey other = false := eq_false_of_ne_true hother
    rw [entries_of_not_hasKey hk, entries_of_not_hasKey (eq_false_of_ne_true hother)]

/-! ## Updates -/

/-- A store that differs from another one in the sections of one key only. -/
structure Updates (before : SectionStore) (key : SectionKey) (bucket : List Section)
    (after : SectionStore) : Prop where
  carriers_eq : after.carriers = before.carriers
  antennas_eq : after.antennas = before.antennas
  capacity_eq : after.capacity = before.capacity
  entries_eq : after.entries = Function.update before.entries key bucket

lemma updates_setBucket (h : store.hasKey key = true) (b : Bucket store.capacity) :
    Updates store key b.live (store.setBucket key b) := by
  refine ⟨rfl, rfl, rfl, ?_⟩
  funext other
  by_cases hne : other = key
  · subst hne
    rw [Function.update_self, entries_setBucket_self h]
  · rw [Function.update_of_ne hne, entries_setBucket_of_ne hne]

end SectionStore

end OpenFronthaul
