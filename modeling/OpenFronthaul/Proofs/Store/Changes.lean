import OpenFronthaul.Proofs.Store.Buckets

/-!
# What each change of a store does

One statement for each way in which a change can end: a key out of range and a full bucket are
refused and leave the store as it is, anything else writes to the bucket of one key (`Writes`).  A
rotation context is emptied by emptying its buckets one after another.
-/

namespace OpenFronthaul.SectionStore

variable {store : SectionStore} {key : SectionKey}

/-- Keys are in range before an update exactly when they are after it. -/
lemma Updates.hasKey_eq {before after : SectionStore} {bucket : List Section}
    (h : Updates before key bucket after) (other : SectionKey) :
    after.hasKey other = before.hasKey other := by
  simp only [hasKey, h.carriers_eq, h.antennas_eq]

lemma Updates.refl (store : SectionStore) (key : SectionKey) :
    Updates store key (store.entries key) store :=
  ⟨rfl, rfl, rfl, (Function.update_eq_self _ _).symm⟩

lemma Updates.entries_self {before after : SectionStore} {bucket : List Section}
    (h : Updates before key bucket after) : after.entries key = bucket := by
  rw [h.entries_eq, Function.update_self]

/-- The second of two updates of one key is the one that stays. -/
lemma Updates.trans {first second third : SectionStore} {bucket bucket' : List Section}
    (h : Updates first key bucket second) (h' : Updates second key bucket' third) :
    Updates first key bucket' third := by
  refine ⟨h'.carriers_eq.trans h.carriers_eq, h'.antennas_eq.trans h.antennas_eq,
    h'.capacity_eq.trans h.capacity_eq, ?_⟩
  rw [h'.entries_eq, h.entries_eq, Function.update_idem]

/-- A store has at least one component carrier and one antenna, and no more than a byte can tell
apart. -/
structure Shaped (store : SectionStore) : Prop where
  carriers_pos : 0 < store.carriers
  carriers_le : store.carriers ≤ 255
  antennas_pos : 0 < store.antennas
  antennas_le : store.antennas ≤ 255

namespace Step

/-- A step that succeeds and gives a key another list of sections. -/
def Writes (step : Step Unit) (store : SectionStore) (key : SectionKey) (bucket : List Section) :
    Prop :=
  ∃ after, step.run store = (.ok (), after) ∧ Updates store key bucket after

section Change

variable {f : {capacity : Nat} → Bucket capacity → Except Error (Bucket capacity)}

lemma run_change_of_not_hasKey (h : store.hasKey key = false) :
    (change key f).run store = (.error (.keyOutOfRange key), store) := by
  simp only [change, run_bind, run_get]
  rw [bucket?_eq_none_iff.mpr h]
  rfl

lemma run_change_of_error {b : Bucket store.capacity} {e : Error}
    (h : store.bucket? key = some b) (hf : f b = .error e) :
    (change key f).run store = (.error e, store) := by
  simp only [change, run_bind, run_get, h, hf]
  rfl

lemma writes_change {b b' : Bucket store.capacity} (h : store.bucket? key = some b)
    (hf : f b = .ok b') : Writes (change key f) store key b'.live := by
  have hkey : store.hasKey key = true := by
    by_contra hne
    rw [bucket?_eq_none_iff.mpr (eq_false_of_ne_true hne)] at h
    cases h
  refine ⟨store.setBucket key b', ?_, updates_setBucket hkey b'⟩
  simp only [change, run_bind, run_get, h, hf]
  rfl

end Change

/-! ## Claiming and writing a place -/

lemma run_reserve_of_not_hasKey (h : store.hasKey key = false) :
    (reserve key).run store = (.error (.keyOutOfRange key), store) :=
  run_change_of_not_hasKey h

lemma run_reserve_of_full (h : store.hasKey key = true)
    (hfull : store.capacity ≤ (store.entries key).length) :
    (reserve key).run store = (.error (.bucketFull key store.capacity), store) := by
  obtain ⟨b, hb⟩ := exists_bucket h
  rw [entries_eq_live hb, ← Bucket.claim?_eq_none_iff] at hfull
  refine run_change_of_error hb ?_
  rw [hfull]
  rfl

lemma writes_reserve (h : store.hasKey key = true)
    (hroom : (store.entries key).length < store.capacity) :
    Writes (reserve key) store key (store.entries key ++ [default]) := by
  obtain ⟨b, hb⟩ := exists_bucket h
  rw [entries_eq_live hb] at hroom ⊢
  rcases hclaim : b.claim? with _ | b'
  · have := b.claim?_eq_none_iff.mp hclaim
    omega
  · rw [← Bucket.live_of_claim? hclaim]
    refine writes_change hb ?_
    rw [hclaim]
    rfl

lemma writes_amend {rest : List Section} {last : Section} (h : store.hasKey key = true)
    (hlast : store.entries key = rest ++ [last]) (edit : Section → Section) :
    Writes (amend key edit) store key (rest ++ [edit last]) := by
  obtain ⟨b, hb⟩ := exists_bucket h
  rw [entries_eq_live hb] at hlast
  rw [← Bucket.live_amend hlast edit]
  exact writes_change hb rfl

/-- Claim the next free place of a bucket and write to it. -/
def reserveThen (key : SectionKey) (edit : Section → Section) : Step Unit := do
  reserve key
  amend key edit

lemma add_eq_reserveThen (key : SectionKey) (info : Section) :
    add key info = reserveThen key fun _ => info := rfl

lemma run_reserveThen_of_not_hasKey {edit : Section → Section} (h : store.hasKey key = false) :
    (reserveThen key edit).run store = (.error (.keyOutOfRange key), store) := by
  rw [reserveThen, run_bind, run_reserve_of_not_hasKey h]

lemma run_reserveThen_of_full {edit : Section → Section} (h : store.hasKey key = true)
    (hfull : store.capacity ≤ (store.entries key).length) :
    (reserveThen key edit).run store = (.error (.bucketFull key store.capacity), store) := by
  rw [reserveThen, run_bind, run_reserve_of_full h hfull]

lemma writes_reserveThen (edit : Section → Section) (h : store.hasKey key = true)
    (hroom : (store.entries key).length < store.capacity) :
    Writes (reserveThen key edit) store key (store.entries key ++ [edit default]) := by
  obtain ⟨claimed, hrun, hupdates⟩ := writes_reserve h hroom
  have hlast : claimed.entries key = store.entries key ++ [default] :=
    hupdates.entries_self
  obtain ⟨written, hrun', hupdates'⟩ :=
    writes_amend ((hupdates.hasKey_eq key).trans h) hlast edit
  refine ⟨written, ?_, hupdates.trans hupdates'⟩
  rw [reserveThen, run_bind, hrun]
  exact hrun'

/-! ## Emptying buckets -/

lemma run_reset_of_not_hasKey (h : store.hasKey key = false) :
    (reset key).run store = (.error (.keyOutOfRange key), store) :=
  run_change_of_not_hasKey h

lemma writes_reset (h : store.hasKey key = true) : Writes (reset key) store key [] := by
  obtain ⟨b, hb⟩ := exists_bucket h
  rw [← b.live_rewind]
  exact writes_change hb rfl

/-- Buckets emptied one after another are empty in the end, and all others stay. -/
lemma run_forM_reset {keys : List SectionKey} (h : ∀ key ∈ keys, store.hasKey key = true) :
    ∃ after, (keys.forM reset).run store = (.ok (), after) ∧
      after.carriers = store.carriers ∧ after.antennas = store.antennas ∧
      after.capacity = store.capacity ∧
      ∀ key, after.entries key = if key ∈ keys then [] else store.entries key := by
  induction keys generalizing store with
  | nil => exact ⟨store, rfl, rfl, rfl, rfl, fun key => by simp⟩
  | cons first keys ih =>
    obtain ⟨next, hrun, hnext⟩ := writes_reset (h first List.mem_cons_self)
    have hkeys : ∀ key ∈ keys, next.hasKey key = true := fun key hkey =>
      (hnext.hasKey_eq key).trans (h key (List.mem_cons_of_mem _ hkey))
    obtain ⟨after, hrun', hcarriers, hantennas, hcapacity, hentries⟩ := ih hkeys
    refine ⟨after, ?_, hcarriers.trans hnext.carriers_eq, hantennas.trans hnext.antennas_eq,
      hcapacity.trans hnext.capacity_eq, fun key => ?_⟩
    · rw [run_forM_cons, hrun]
      exact hrun'
    · rw [hentries, hnext.entries_eq]
      by_cases hfirst : key = first
      · subst hfirst
        simp
      · simp [hfirst]

lemma mem_keysOf (hshape : Shaped store) {context : UInt8} :
    key ∈ store.keysOf context ↔ key.context = context ∧
      key.carrier.toNat < store.carriers ∧ key.antenna.toNat < store.antennas := by
  have hc := hshape.carriers_le
  have ha := hshape.antennas_le
  simp only [keysOf, List.mem_flatMap, List.mem_map, List.mem_range]
  constructor
  · rintro ⟨direction, -, carrier, hcarrier, antenna, hantenna, rfl⟩
    refine ⟨rfl, ?_, ?_⟩
    · simp only [UInt8.toNat_ofNat']
      omega
    · simp only [UInt8.toNat_ofNat']
      omega
  · rintro ⟨rfl, hcarrier, hantenna⟩
    refine ⟨key.direction, by cases key.direction <;> decide, key.carrier.toNat, hcarrier,
      key.antenna.toNat, hantenna, ?_⟩
    simp only [UInt8.ofNat_toNat]

lemma run_resetContext_of_lt (hshape : Shaped store) {context : UInt8}
    (h : context.toNat < rotationContexts) :
    ∃ after, (resetContext context).run store = (.ok (), after) ∧
      after.carriers = store.carriers ∧ after.antennas = store.antennas ∧
      after.capacity = store.capacity ∧
      ∀ key, after.entries key = if key.context = context then [] else store.entries key := by
  have hkeys : ∀ key ∈ store.keysOf context, store.hasKey key = true := fun key hkey => by
    obtain ⟨rfl, hcarrier, hantenna⟩ := (mem_keysOf hshape).mp hkey
    exact hasKey_iff.mpr ⟨h, hcarrier, hantenna⟩
  obtain ⟨after, hrun, hcarriers, hantennas, hcapacity, hentries⟩ := run_forM_reset hkeys
  refine ⟨after, hrun, hcarriers, hantennas, hcapacity, fun key => ?_⟩
  rw [hentries]
  by_cases hcontext : key.context = context
  · rw [if_pos hcontext]
    split
    · rfl
    case isFalse hkey =>
      -- the key has the right context, so another part of it is out of range
      refine entries_of_not_hasKey (eq_false_of_ne_true fun hhas => hkey ?_)
      exact (mem_keysOf hshape).mpr ⟨hcontext, (hasKey_iff.mp hhas).2⟩
  · rw [if_neg hcontext, if_neg fun hkey => hcontext ((mem_keysOf hshape).mp hkey).1]

lemma run_resetContext_of_ge (hshape : Shaped store) {context : UInt8}
    (h : rotationContexts ≤ context.toNat) :
    ∃ key, (resetContext context).run store = (.error (.keyOutOfRange key), store) := by
  rcases hkeys : store.keysOf context with _ | ⟨first, keys⟩
  · -- the first carrier and the first antenna are always there
    have hmem : (⟨.ul, 0, 0, context⟩ : SectionKey) ∈ store.keysOf context :=
      (mem_keysOf hshape).mpr ⟨rfl, hshape.carriers_pos, hshape.antennas_pos⟩
    rw [hkeys] at hmem
    cases hmem
  · have hfirst : first ∈ store.keysOf context := hkeys ▸ List.mem_cons_self
    obtain ⟨hcontext, -, -⟩ := (mem_keysOf hshape).mp hfirst
    have hnot : store.hasKey first = false := eq_false_of_ne_true fun hhas => by
      have hlt := (hasKey_iff.mp hhas).1
      rw [hcontext] at hlt
      omega
    refine ⟨first, ?_⟩
    have hrun : (resetContext context).run store = (List.forM (first :: keys) reset).run store := by
      rw [← hkeys]
      rfl
    rw [hrun, run_forM_cons, run_reset_of_not_hasKey hnot]

lemma Writes.after_eq {step : Step Unit} {bucket : List Section}
    (h : Writes step store key bucket) :
    ∃ after, step.after store = .ok after ∧ Updates store key bucket after := by
  obtain ⟨after, hrun, hupdates⟩ := h
  refine ⟨after, ?_, hupdates⟩
  rw [Step.after, hrun]
  rfl

end Step

/-! ## Recording a section -/

lemma add_of_room (info : Section) (h : store.hasKey key = true)
    (hroom : (store.entries key).length < store.capacity) :
    ∃ after, store.add key info = .ok after ∧
      Updates store key (store.entries key ++ [info]) after :=
  (Step.writes_reserveThen (fun _ => info) h hroom).after_eq

lemma add_of_full (info : Section) (h : store.hasKey key = true)
    (hfull : store.capacity ≤ (store.entries key).length) :
    store.add key info = .error (.bucketFull key store.capacity) := by
  rw [add, Step.add_eq_reserveThen, Step.after, Step.run_reserveThen_of_full h hfull]
  rfl

lemma add_of_not_hasKey (info : Section) (h : store.hasKey key = false) :
    store.add key info = .error (.keyOutOfRange key) := by
  rw [add, Step.add_eq_reserveThen, Step.after, Step.run_reserveThen_of_not_hasKey h]
  rfl

/-- A section that was recorded stands at the end of its bucket. -/
lemma updates_of_add {info : Section} {after : SectionStore} (h : store.add key info = .ok after) :
    Updates store key (store.entries key ++ [info]) after := by
  by_cases hkey : store.hasKey key = true
  · by_cases hroom : (store.entries key).length < store.capacity
    · obtain ⟨next, hnext, hupdates⟩ := add_of_room info hkey hroom
      obtain rfl := Except.ok.inj (hnext.symm.trans h)
      exact hupdates
    · rw [add_of_full info hkey (Nat.le_of_not_lt hroom)] at h
      cases h
  · rw [add_of_not_hasKey info (eq_false_of_ne_true hkey)] at h
    cases h

/-- A bucket that was emptied has no sections. -/
lemma updates_of_reset {after : SectionStore} (h : store.reset key = .ok after) :
    Updates store key [] after := by
  by_cases hkey : store.hasKey key = true
  · obtain ⟨next, hnext, hupdates⟩ := (Step.writes_reset hkey).after_eq
    obtain rfl := Except.ok.inj (hnext.symm.trans h)
    exact hupdates
  · rw [reset, Step.after, Step.run_reset_of_not_hasKey (eq_false_of_ne_true hkey)] at h
    cases h

end OpenFronthaul.SectionStore
