import OpenFronthaul.Frame.Structure
import OpenFronthaul.Proofs.Steps
import Mathlib.Tactic

/-!
# The symbols that a direction may use

A slot that serves a direction carries that direction, or both, on every symbol, unless it is
special.  In a special slot a range of symbols is clipped to the first run of symbols of the
direction (`clip?_eq_some`, `clip?_eq_none`).
-/

namespace OpenFronthaul

/-! ## Runs in a list -/

section Runs

variable {α : Type} {p : α → Bool} {xs : List α} {i : ℕ}

lemma lt_length_takeWhile : i < (xs.takeWhile p).length ↔
    i < xs.length ∧ ∀ j, (hj : j < xs.length) → j ≤ i → p xs[j] = true := by
  rw [List.takeWhile_eq_take_findIdx_not, List.length_take,
    Nat.min_eq_left List.findIdx_le_length, List.lt_findIdx_iff]
  constructor
  · rintro ⟨hi, hrun⟩
    exact ⟨hi, fun j hj hle => by simpa using hrun j hle⟩
  · rintro ⟨hi, hrun⟩
    exact ⟨hi, fun j hle => by simpa using hrun j (hle.trans_lt hi) hle⟩

/-- The first run of elements with a property, by its places. -/
lemma findIdx_add_length_takeWhile :
    xs.findIdx p ≤ i ∧ i < xs.findIdx p + ((xs.drop (xs.findIdx p)).takeWhile p).length ↔
      i < xs.length ∧ ∃ first ≤ i, (∀ j, (hj : j < xs.length) → j < first → p xs[j] = false) ∧
        ∀ j, (hj : j < xs.length) → first ≤ j → j ≤ i → p xs[j] = true := by
  constructor
  · rintro ⟨hle, hlt⟩
    have hlast : i - xs.findIdx p < ((xs.drop (xs.findIdx p)).takeWhile p).length := by omega
    obtain ⟨hlength, hrun⟩ := lt_length_takeWhile.mp hlast
    rw [List.length_drop] at hlength
    refine ⟨by omega, xs.findIdx p, hle, fun j hj hbefore => List.not_of_lt_findIdx hbefore, ?_⟩
    intro j hj hfirst hji
    have hat := hrun (j - xs.findIdx p) (by rw [List.length_drop]; omega) (by omega)
    simp only [List.getElem_drop, Nat.add_sub_cancel' hfirst] at hat
    exact hat
  · rintro ⟨hlength, first, hle, hbefore, hrun⟩
    have hfirst : xs.findIdx p = first :=
      (List.findIdx_eq (hle.trans_lt hlength)).mpr
        ⟨hrun first _ le_rfl hle, fun j hj => hbefore j _ hj⟩
    have hlt : i - first < ((xs.drop first).takeWhile p).length := by
      refine lt_length_takeWhile.mpr ⟨by rw [List.length_drop]; omega, fun j hj hji => ?_⟩
      rw [List.getElem_drop]
      exact hrun (first + j) _ (by omega) (by omega)
    rw [hfirst]
    omega

end Runs

/-! ## Clipping -/

namespace FrameStructure

variable {frame : FrameStructure} {use : SymbolUse} {number : ℤ} {start count lo n i : ℕ}

/-- A symbol of a slot lies in the first run of symbols of a use. -/
def InFirstRun (frame : FrameStructure) (use : SymbolUse) (number : ℤ) (i : ℕ) : Prop :=
  i < symbolsPerSlot ∧ ∃ first ≤ i, (∀ j < first, frame.symbolUse number j ≠ use) ∧
    ∀ j, first ≤ j → j ≤ i → frame.symbolUse number j = use

lemma InFirstRun.symbolUse_eq (h : frame.InFirstRun use number i) :
    frame.symbolUse number i = use := by
  obtain ⟨-, first, hle, -, hrun⟩ := h
  exact hrun i hle le_rfl

lemma length_symbols (slot : PatternSlot) : slot.symbols.toList.length = symbolsPerSlot :=
  Vector.length_toList

lemma symbolUse_eq_getElem (h : i < (frame.slot number).symbols.toList.length) :
    frame.symbolUse number i = (frame.slot number).symbols.toList[i] := by
  have hlt : i < 14 := h.trans_eq (length_symbols _)
  rw [Vector.getElem_toList, symbolUse]
  simp only [Nat.mod_eq_of_lt hlt]
  rfl

/-- The places of the first run in the symbols of a slot. -/
lemma inFirstRun_iff : frame.InFirstRun use number i ↔
    let symbols := (frame.slot number).symbols.toList
    let first := symbols.findIdx (· = use)
    first ≤ i ∧ i < first + ((symbols.drop first).takeWhile (· = use)).length := by
  dsimp only
  rw [findIdx_add_length_takeWhile]
  have hlength := length_symbols (frame.slot number)
  have hat : ∀ j, (hj : j < (frame.slot number).symbols.toList.length) →
      ((frame.slot number).symbols.toList[j] = use ↔ frame.symbolUse number j = use) :=
    fun j hj => by rw [symbolUse_eq_getElem hj]
  constructor
  · rintro ⟨hi, first, hle, hbefore, hrun⟩
    refine ⟨hi.trans_eq hlength.symm, first, hle, fun j hj hlt => ?_, fun j hj hfirst hji => ?_⟩
    · exact decide_eq_false ((hat j hj).not.mpr (hbefore j hlt))
    · exact decide_eq_true ((hat j hj).mpr (hrun j hfirst hji))
  · rintro ⟨hi, first, hle, hbefore, hrun⟩
    refine ⟨hi.trans_eq hlength, first, hle, fun j hlt => ?_, fun j hfirst hji => ?_⟩
    · have hj : j < (frame.slot number).symbols.toList.length := by omega
      exact (hat j hj).not.mp (of_decide_eq_false (hbefore j (by omega) hlt))
    · have hj : j < (frame.slot number).symbols.toList.length := by omega
      exact (hat j hj).mp (of_decide_eq_true (hrun j (by omega) hfirst hji))

/-- What is left of a range is what it shares with the first run. -/
theorem clip?_eq_some (h : frame.clip? use number start count = some (lo, n)) :
    0 < n ∧ ∀ i, lo ≤ i ∧ i < lo + n ↔
      start ≤ i ∧ i < start + count ∧ frame.InFirstRun use number i := by
  rw [clip?, PatternSlot.clip?] at h
  split_ifs at h with hlt
  obtain ⟨rfl, rfl⟩ := Prod.mk.inj (Option.some.inj h)
  refine ⟨Nat.sub_pos_of_lt hlt, fun i => ?_⟩
  rw [inFirstRun_iff]
  dsimp only
  omega

/-- Nothing is left of a range when it misses the first run. -/
theorem clip?_eq_none : frame.clip? use number start count = none ↔
    ∀ i, start ≤ i → i < start + count → ¬frame.InFirstRun use number i := by
  simp only [inFirstRun_iff]
  rw [clip?, PatternSlot.clip?]
  split_ifs with hlt
  · refine ⟨nofun, fun hmiss => ?_⟩
    have hout := hmiss _ (le_max_right _ _) (hlt.trans_le (min_le_right _ _))
    exact absurd ⟨le_max_left _ _, hlt.trans_le (min_le_left _ _)⟩ hout
  · refine ⟨fun _ i hstart hi hrun => hlt ?_, fun _ => rfl⟩
    omega

end FrameStructure

/-! ## Slots of one direction -/

lemma SlotPattern.kind_ne_fdd (pattern : SlotPattern) : pattern.kind ≠ .fdd := by
  rw [kind]
  split_ifs
  · nofun
  · nofun
  · nofun

/-- The kind of a slot is found by counting the symbols of the others. -/
lemma SlotPattern.use_of_kind {pattern : SlotPattern} {direction : Direction} {use : SymbolUse}
    (hkind : pattern.kind = .ofDirection direction) (huse : use ∈ pattern.toList) :
    use = .ofDirection direction ∨ use = .fdd := by
  have hpresent : pattern.count use ≠ 0 := fun hzero => List.count_eq_zero.mp hzero huse
  rw [kind] at hkind
  split_ifs at hkind with hdl hul
  · cases direction with
    | ul => cases hkind
    | dl =>
      cases use with
      | dl => exact .inl rfl
      | fdd => exact .inr rfl
      | ul => exact absurd hdl.1 hpresent
      | guard => exact absurd hdl.2 hpresent
  · cases direction with
    | dl => cases hkind
    | ul =>
      cases use with
      | ul => exact .inl rfl
      | fdd => exact .inr rfl
      | dl => exact absurd hul.1 hpresent
      | guard => exact absurd hul.2 hpresent
  · cases direction with
    | dl => cases hkind
    | ul => cases hkind

namespace FrameStructure

variable {frame : FrameStructure} {direction : Direction} {number : ℤ} {i : ℕ}

/-- The slots of unpaired spectrum are those of its patterns. -/
lemma exists_slot_of_tdd {mu : Numerology} {patterns : List SlotPattern}
    (h : tdd mu patterns = .ok frame) (number : ℤ) :
    ∃ pattern ∈ patterns, frame.slot number = .ofPattern pattern := by
  rw [tdd, guard_eq_ok, pure_eq_ok] at h
  obtain ⟨hperiod, rfl⟩ := h
  rw [not_or, List.isEmpty_iff, ← ne_eq, ← List.length_pos_iff] at hperiod
  have hlt : mu.wrapSlot number % patterns.length < patterns.length := Nat.mod_lt _ hperiod.1
  refine ⟨patterns[mu.wrapSlot number % patterns.length], List.getElem_mem hlt, ?_⟩
  rw [slot, period, List.length_map, List.getElem?_map, List.getElem?_eq_getElem hlt]
  rfl

/-- A frame structure that a carrier can be given. -/
inductive Configured : FrameStructure → Prop
  | fdd (mu : Numerology) : Configured (fdd mu)
  | tdd {mu : Numerology} {patterns : List SlotPattern} {frame : FrameStructure}
      (h : tdd mu patterns = .ok frame) : Configured frame

/-- Paired spectrum has one kind of slot, and unpaired spectrum the slots of its patterns. -/
lemma Configured.slot_cases (h : frame.Configured) (number : ℤ) :
    frame.duplex = .fdd ∧ frame.slot number = .paired ∨
      frame.duplex = .tdd ∧ ∃ pattern, frame.slot number = .ofPattern pattern := by
  cases h with
  | fdd mu =>
    refine .inl ⟨rfl, ?_⟩
    rw [slot, period, FrameStructure.fdd, List.length_singleton, Nat.mod_one]
    rfl
  | @tdd mu patterns _ h =>
    obtain ⟨pattern, -, hslot⟩ := exists_slot_of_tdd h number
    rw [FrameStructure.tdd, guard_eq_ok, pure_eq_ok] at h
    obtain ⟨-, rfl⟩ := h
    exact .inr ⟨rfl, pattern, hslot⟩

/-- Only unpaired spectrum has special slots. -/
lemma Configured.duplex_ne_fdd (h : frame.Configured) (hspecial : frame.isSpecial number = true) :
    frame.duplex ≠ .fdd := by
  rcases h.slot_cases number with ⟨-, hslot⟩ | ⟨hduplex, -⟩
  · rw [isSpecial, slotKind, hslot] at hspecial
    cases hspecial
  · rw [hduplex]
    nofun

/-- A slot that serves a direction, and is not special, carries it on every symbol. -/
theorem Configured.symbolUse_of_serves (h : frame.Configured)
    (hserves : frame.serves number (.ofDirection direction) = true)
    (hspecial : frame.isSpecial number = false) (i : ℕ) :
    frame.symbolUse number i = .ofDirection direction ∨ frame.symbolUse number i = .fdd := by
  rw [symbolUse]
  rcases h.slot_cases number with ⟨-, hslot⟩ | ⟨-, pattern, hslot⟩
  · right
    rw [hslot, PatternSlot.paired]
    exact Vector.getElem_replicate _
  · rw [serves, hslot, PatternSlot.ofPattern] at hserves
    rw [isSpecial, slotKind, hslot] at hspecial
    have hspecial : pattern.kind ≠ .special := of_decide_eq_false hspecial
    have hkind : pattern.kind = .ofDirection direction := by
      simpa [PatternSlot.serves, PatternSlot.isSpecialWith, hspecial, pattern.kind_ne_fdd]
        using hserves
    rw [hslot]
    exact SlotPattern.use_of_kind hkind (Vector.mem_toList_iff.mpr (Vector.getElem_mem _))

end FrameStructure

end OpenFronthaul
