import OpenFronthaul.Proofs.Store.Changes

/-!
# Stores that agree on some buckets

Two stores of one shape can hold the same sections under some keys and different ones under others.
A change under one of these keys ends in the same way for both, and they agree on them again.
-/

namespace OpenFronthaul.SectionStore

variable {left right left' right' : SectionStore} {keys : SectionKey → Prop} {key : SectionKey}
  {bucket : List Section}

/-- Stores of one shape that hold the same sections under some keys. -/
structure AgreesOn (keys : SectionKey → Prop) (left right : SectionStore) : Prop where
  carriers_eq : left.carriers = right.carriers
  antennas_eq : left.antennas = right.antennas
  capacity_eq : left.capacity = right.capacity
  entries_eq : ∀ key, keys key → left.entries key = right.entries key

/-- Both stores refuse a change for the same reason, or it writes the same bucket. -/
def SameOutcome (left right : SectionStore) (key : SectionKey)
    (x y : Except Error SectionStore) : Prop :=
  (∃ e, x = .error e ∧ y = .error e) ∨
    ∃ left' right' bucket, x = .ok left' ∧ y = .ok right' ∧
      Updates left key bucket left' ∧ Updates right key bucket right'

namespace AgreesOn

lemma refl (keys : SectionKey → Prop) (store : SectionStore) : AgreesOn keys store store :=
  ⟨rfl, rfl, rfl, fun _ _ => rfl⟩

lemma symm (h : AgreesOn keys left right) : AgreesOn keys right left :=
  ⟨h.carriers_eq.symm, h.antennas_eq.symm, h.capacity_eq.symm,
    fun key hkey => (h.entries_eq key hkey).symm⟩

lemma trans {third : SectionStore} (h : AgreesOn keys left right)
    (h' : AgreesOn keys right third) : AgreesOn keys left third :=
  ⟨h.carriers_eq.trans h'.carriers_eq, h.antennas_eq.trans h'.antennas_eq,
    h.capacity_eq.trans h'.capacity_eq,
    fun key hkey => (h.entries_eq key hkey).trans (h'.entries_eq key hkey)⟩

lemma mono {fewer : SectionKey → Prop} (h : AgreesOn keys left right)
    (hkeys : ∀ key, fewer key → keys key) : AgreesOn fewer left right :=
  ⟨h.carriers_eq, h.antennas_eq, h.capacity_eq, fun key hkey => h.entries_eq key (hkeys key hkey)⟩

lemma hasKey_eq (h : AgreesOn keys left right) (key : SectionKey) :
    left.hasKey key = right.hasKey key := by
  simp only [hasKey, h.carriers_eq, h.antennas_eq]

/-- A change under another key does not matter. -/
lemma of_updates (h : Updates left key bucket left') (hkey : ¬keys key) :
    AgreesOn keys left left' := by
  refine ⟨h.carriers_eq.symm, h.antennas_eq.symm, h.capacity_eq.symm, ?_⟩
  intro other hother
  rw [h.entries_eq, Function.update_of_ne]
  rintro rfl
  exact hkey hother

lemma updates (h : AgreesOn keys left right) (hleft : Updates left key bucket left')
    (hright : Updates right key bucket right') : AgreesOn keys left' right' := by
  refine ⟨?_, ?_, ?_, ?_⟩
  · rw [hleft.carriers_eq, hright.carriers_eq, h.carriers_eq]
  · rw [hleft.antennas_eq, hright.antennas_eq, h.antennas_eq]
  · rw [hleft.capacity_eq, hright.capacity_eq, h.capacity_eq]
  · intro other hother
    rw [hleft.entries_eq, hright.entries_eq]
    by_cases heq : other = key
    · subst heq
      rw [Function.update_self, Function.update_self]
    · rw [Function.update_of_ne heq, Function.update_of_ne heq, h.entries_eq other hother]

lemma add (h : AgreesOn keys left right) (hkey : keys key) (info : Section) :
    SameOutcome left right key (left.add key info) (right.add key info) := by
  cases hleft : left.hasKey key with
  | false =>
    have hright : right.hasKey key = false := h.hasKey_eq key ▸ hleft
    exact .inl ⟨_, add_of_not_hasKey info hleft, add_of_not_hasKey info hright⟩
  | true =>
    have hright : right.hasKey key = true := h.hasKey_eq key ▸ hleft
    have hentries := h.entries_eq key hkey
    rcases Nat.lt_or_ge (left.entries key).length left.capacity with hroom | hfull
    · obtain ⟨left', hadd, hupdates⟩ := add_of_room info hleft hroom
      rw [hentries, h.capacity_eq] at hroom
      obtain ⟨right', hadd', hupdates'⟩ := add_of_room info hright hroom
      rw [hentries] at hupdates
      exact .inr ⟨left', right', _, hadd, hadd', hupdates, hupdates'⟩
    · have hleft' := add_of_full info hleft hfull
      rw [hentries, h.capacity_eq] at hfull
      rw [h.capacity_eq] at hleft'
      exact .inl ⟨_, hleft', add_of_full info hright hfull⟩

lemma reset (h : AgreesOn keys left right) :
    SameOutcome left right key (left.reset key) (right.reset key) := by
  cases hleft : left.hasKey key with
  | false =>
    have hright : right.hasKey key = false := h.hasKey_eq key ▸ hleft
    refine .inl ⟨.keyOutOfRange key, ?_, ?_⟩
    · rw [SectionStore.reset, Step.after, Step.run_reset_of_not_hasKey hleft]
      rfl
    · rw [SectionStore.reset, Step.after, Step.run_reset_of_not_hasKey hright]
      rfl
  | true =>
    have hright : right.hasKey key = true := h.hasKey_eq key ▸ hleft
    obtain ⟨left', hreset, hupdates⟩ := (Step.writes_reset hleft).after_eq
    obtain ⟨right', hreset', hupdates'⟩ := (Step.writes_reset hright).after_eq
    exact .inr ⟨left', right', [], hreset, hreset', hupdates, hupdates'⟩

end AgreesOn

end OpenFronthaul.SectionStore
