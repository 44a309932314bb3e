import OpenFronthaul.Proofs.Frame.Symbols
import Mathlib.Data.List.TakeWhile
import Mathlib.Order.Interval.Set.Basic

/-!
# Queries about a slot

Whether a slot carries a direction can be asked in three ways: by its kind, which was found once by
counting symbols, symbol by symbol, and by clipping the whole slot.  The three agree on patterns
that letters spell, and a range is clipped to exactly what it shares with the first run
(`queries_agree`).  No letter stands for a symbol of both directions: a slot of such symbols alone
would be taken for a downlink slot, but none of them is a downlink symbol.
-/

namespace OpenFronthaul

lemma SymbolUse.ofDirection_inj {d d' : Direction} : ofDirection d = ofDirection d' ↔ d = d' := by
  cases d <;> cases d' <;> simp [ofDirection]

/-! ## Patterns of letters -/

/-- A letter stands for one direction or for none, and it is a capital that is not blank. -/
lemma SymbolUse.ofLetter?_eq_some {letter : Char} {use : SymbolUse}
    (h : ofLetter? letter = some use) :
    use ≠ .fdd ∧ letter.toUpper = letter ∧ SlotPattern.isBlank letter = false := by
  rw [ofLetter?.eq_def] at h
  split at h
  · obtain rfl := Option.some.inj h
    exact ⟨nofun, rfl, rfl⟩
  · obtain rfl := Option.some.inj h
    exact ⟨nofun, rfl, rfl⟩
  · obtain rfl := Option.some.inj h
    exact ⟨nofun, rfl, rfl⟩
  · cases h

namespace SlotPattern

variable {pattern : SlotPattern} {text : String} {letters : List Char} {uses : List SymbolUse}
  {direction : Direction}

/-- Each symbol of a pattern is of a use that a letter stands for. -/
def Lettered (pattern : SlotPattern) : Prop :=
  ∀ use ∈ pattern.toList, ∃ letter, SymbolUse.ofLetter? letter = some use

lemma exists_of_readLetters (h : readLetters text letters = .ok uses) :
    ∀ use ∈ uses, ∃ letter, SymbolUse.ofLetter? letter = some use := by
  induction letters generalizing uses with
  | nil =>
    cases h
    nofun
  | cons letter rest ih =>
    rw [readLetters] at h
    split at h
    · next first hfirst =>
      obtain ⟨others, hothers, hcons⟩ := bind_eq_ok.mp h
      cases hcons
      rintro use (_ | ⟨_, huse⟩)
      · exact ⟨_, hfirst⟩
      · exact ih hothers use huse
    · cases h

lemma readLetters_of_forall₂
    (h : List.Forall₂ (fun letter use => SymbolUse.ofLetter? letter = some use) letters uses) :
    readLetters text letters = .ok uses := by
  induction h with
  | nil => rfl
  | @cons letter use rest others hletter _ ih =>
    rw [readLetters, (SymbolUse.ofLetter?_eq_some hletter).2.1, hletter]
    dsimp only
    rw [ih]
    rfl

/-- A text without blanks is not cut. -/
lemma trim_eq_self (h : ∀ letter ∈ letters, isBlank letter = false) : trim letters = letters := by
  have hkeep : ∀ {cs : List Char}, (∀ c ∈ cs, isBlank c = false) → cs.dropWhile isBlank = cs :=
    fun hcs => List.dropWhile_eq_self_iff.mpr fun hpos =>
      Bool.not_eq_true _ ▸ hcs _ (List.getElem_mem hpos)
  rw [trim, hkeep h, hkeep fun c hc => h c (List.mem_reverse.mp hc), List.reverse_reverse]

/-- The patterns of letters are those that texts are read as. -/
theorem lettered_iff_exists_parse : pattern.Lettered ↔ ∃ text, parse text = .ok pattern := by
  constructor
  · intro h
    choose! letter hletter using h
    have hblank : ∀ c ∈ pattern.toList.map letter, isBlank c = false := by
      intro c hc
      obtain ⟨use, huse, rfl⟩ := List.mem_map.mp hc
      exact (SymbolUse.ofLetter?_eq_some (hletter use huse)).2.2
    have hread : readLetters (.ofList (pattern.toList.map letter)) (pattern.toList.map letter) =
        .ok pattern.toList :=
      readLetters_of_forall₂
        (List.forall₂_map_left_iff.mpr (List.forall₂_same.mpr fun use huse => hletter use huse))
    refine ⟨.ofList (pattern.toList.map letter), ?_⟩
    simp only [parse, String.toList_ofList, trim_eq_self hblank, List.length_map,
      Vector.length_toList, if_pos, hread, ok_bind, dif_pos]
    rfl
  · rintro ⟨text, htext⟩ use huse
    simp only [parse] at htext
    split_ifs at htext
    obtain ⟨uses, huses, hpattern⟩ := bind_eq_ok.mp htext
    split_ifs at hpattern
    cases hpattern
    exact exists_of_readLetters huses use huse

/-- A slot of unpaired spectrum carries one direction throughout, or it is special. -/
lemma kind_cases (pattern : SlotPattern) :
    (∃ carried, pattern.kind = .ofDirection carried) ∨ pattern.kind = .special := by
  rw [kind]
  split_ifs
  · exact .inl ⟨.dl, rfl⟩
  · exact .inl ⟨.ul, rfl⟩
  · exact .inr rfl

/-- A slot that is not special has symbols of its own direction only. -/
lemma Lettered.mem_iff_of_kind (h : pattern.Lettered) {carried : Direction}
    (hkind : pattern.kind = .ofDirection carried) :
    .ofDirection direction ∈ pattern.toList ↔ carried = direction := by
  have hown : ∀ use ∈ pattern.toList, use = .ofDirection carried := by
    intro use huse
    obtain ⟨letter, hletter⟩ := h use huse
    exact (use_of_kind hkind huse).resolve_right (SymbolUse.ofLetter?_eq_some hletter).1
  constructor
  · intro hmem
    exact (SymbolUse.ofDirection_inj.mp (hown _ hmem)).symm
  · rintro rfl
    have hfirst : pattern[0] ∈ pattern.toList := Vector.mem_toList_iff.mpr (Vector.getElem_mem _)
    rwa [hown _ hfirst] at hfirst

/-- A slot serves a direction exactly when a symbol of it is of the direction. -/
lemma Lettered.serves_iff (h : pattern.Lettered) :
    (PatternSlot.ofPattern pattern).serves (.ofDirection direction) = true ↔
      .ofDirection direction ∈ pattern.toList := by
  rcases pattern.kind_cases with ⟨carried, hkind⟩ | hkind
  · rw [h.mem_iff_of_kind hkind]
    cases carried <;> cases direction <;>
      simp [PatternSlot.ofPattern, PatternSlot.serves, PatternSlot.isSpecialWith, hkind,
        SlotKind.ofDirection]
  · rw [← List.count_pos_iff]
    cases direction <;>
      simp [PatternSlot.ofPattern, PatternSlot.serves, PatternSlot.isSpecialWith, hkind,
        SlotKind.ofDirection, SymbolUse.ofDirection, count]

end SlotPattern

namespace FrameStructure

variable {frame : FrameStructure} {mu : Numerology} {patterns : List SlotPattern}
  {use : SymbolUse} {direction : Direction} {number : ℤ} {start count lo n : ℕ}

lemma exists_symbolUse_iff : (∃ symbol < symbolsPerSlot, frame.symbolUse number symbol = use) ↔
    use ∈ (frame.slot number).symbols.toList := by
  rw [List.mem_iff_getElem]
  constructor
  · rintro ⟨symbol, hsymbol, huse⟩
    have hlt := hsymbol.trans_eq (length_symbols (frame.slot number)).symm
    exact ⟨symbol, hlt, symbolUse_eq_getElem hlt ▸ huse⟩
  · rintro ⟨symbol, hlt, huse⟩
    exact ⟨symbol, hlt.trans_eq (length_symbols _), symbolUse_eq_getElem hlt ▸ huse⟩

/-- A slot with a symbol of a use has a first run of it. -/
lemma exists_inFirstRun_iff : (∃ i, frame.InFirstRun use number i) ↔
    ∃ symbol < symbolsPerSlot, frame.symbolUse number symbol = use := by
  constructor
  · rintro ⟨i, hi⟩
    exact ⟨i, hi.1, hi.symbolUse_eq⟩
  · intro h
    classical
    obtain ⟨hlt, huse⟩ := Nat.find_spec h
    refine ⟨Nat.find h, hlt, Nat.find h, le_rfl, fun j hj hju => ?_, fun j hle hge => ?_⟩
    · exact Nat.find_min h hj ⟨hj.trans hlt, hju⟩
    · rwa [le_antisymm hge hle]

lemma isSome_clip?_iff : (frame.clip? use number 0 symbolsPerSlot).isSome = true ↔
    ∃ symbol < symbolsPerSlot, frame.symbolUse number symbol = use := by
  rw [← exists_inFirstRun_iff, Option.isSome_iff_ne_none, ne_eq, clip?_eq_none]
  push Not
  constructor
  · rintro ⟨i, -, -, hi⟩
    exact ⟨i, hi⟩
  · rintro ⟨i, hi⟩
    exact ⟨i, Nat.zero_le i, by simpa using hi.1, hi⟩

/-- The places of the first run of symbols of a use. -/
def firstRun (frame : FrameStructure) (use : SymbolUse) (number : ℤ) : Set ℕ :=
  {i | frame.InFirstRun use number i}

lemma clip?_eq_none_iff : frame.clip? use number start count = none ↔
    Set.Ico start (start + count) ∩ frame.firstRun use number = ∅ := by
  rw [clip?_eq_none, Set.eq_empty_iff_forall_notMem]
  refine forall_congr' fun i => ?_
  rw [Set.mem_inter_iff, Set.mem_Ico, firstRun, Set.mem_ofPred_eq]
  tauto

/-- What is left of a range is all that it shares with the first run. -/
lemma Ico_eq_of_clip? (h : frame.clip? use number start count = some (lo, n)) :
    Set.Ico lo (lo + n) = Set.Ico start (start + count) ∩ frame.firstRun use number := by
  refine Set.ext fun i => ?_
  rw [Set.mem_Ico, (clip?_eq_some h).2, Set.mem_inter_iff, Set.mem_Ico, and_assoc]
  rfl

/-- What a range shares with the first run is an interval, so that it has only one length. -/
lemma clip?_eq_some_iff : frame.clip? use number start count = some (lo, n) ↔
    0 < n ∧ Set.Ico lo (lo + n) = Set.Ico start (start + count) ∩ frame.firstRun use number := by
  refine ⟨fun h => ⟨(clip?_eq_some h).1, Ico_eq_of_clip? h⟩, ?_⟩
  rintro ⟨hpos, hrange⟩
  cases hclip : frame.clip? use number start count with
  | none =>
    rw [clip?_eq_none_iff.mp hclip, Set.Ico_eq_empty_iff] at hrange
    omega
  | some clipped =>
    have hpos' := (clip?_eq_some hclip).1
    have hsame := (Ico_eq_of_clip? hclip).trans hrange.symm
    obtain ⟨hle, hge⟩ := (Set.Ico_subset_Ico_iff (by omega)).mp hsame.subset
    obtain ⟨hle', hge'⟩ := (Set.Ico_subset_Ico_iff (by omega)).mp hsame.superset
    congr 1
    exact Prod.ext (le_antisymm hle' hle) (by omega)

/-- The queries about a slot agree, and a range of it is clipped to what it shares with the first
run. -/
theorem queries_agree (h : tdd mu patterns = .ok frame)
    (hletters : ∀ pattern ∈ patterns, pattern.Lettered) (number : ℤ) (direction : Direction) :
    (frame.serves number (.ofDirection direction) = true ↔
      ∃ symbol < symbolsPerSlot, frame.symbolUse number symbol = .ofDirection direction) ∧
    ((frame.clip? (.ofDirection direction) number 0 symbolsPerSlot).isSome = true ↔
      ∃ symbol < symbolsPerSlot, frame.symbolUse number symbol = .ofDirection direction) ∧
    ∀ start count,
      (∀ lo n, frame.clip? (.ofDirection direction) number start count = some (lo, n) ↔
        0 < n ∧ Set.Ico lo (lo + n) =
          Set.Ico start (start + count) ∩ frame.firstRun (.ofDirection direction) number) ∧
      (frame.clip? (.ofDirection direction) number start count = none ↔
        Set.Ico start (start + count) ∩ frame.firstRun (.ofDirection direction) number = ∅) := by
  refine ⟨?_, isSome_clip?_iff, fun start count =>
    ⟨fun lo n => clip?_eq_some_iff, clip?_eq_none_iff⟩⟩
  obtain ⟨pattern, hpattern, hslot⟩ := exists_slot_of_tdd h number
  rw [exists_symbolUse_iff, serves, hslot]
  exact (hletters pattern hpattern).serves_iff

end FrameStructure

/-! ## A slot with several runs -/

namespace FrameStructure.SeveralRuns

/-- A downlink slot, a slot with two runs of each direction, and a slot of guard symbols. -/
def patterns : List SlotPattern :=
  [.uniform .dl,
    #v[.guard, .dl, .dl, .dl, .guard, .dl, .dl, .guard, .ul, .ul, .guard, .ul, .ul, .guard],
    .uniform .guard]

/-- A frame of these slots. -/
def frame : FrameStructure :=
  ⟨.khz30, .tdd, patterns.map .ofPattern, ⟨2, 3⟩, ⟨1, 3⟩⟩

/-- In the slot before the first one the uplink is clipped to its first run, whatever follows; the
slot of guard symbols carries nothing. -/
theorem queries_agree_severalRuns :
    (["DDDDDDDDDDDDDD", "GDDDGDDGUUGUUG", "gggggggggggggg"].mapM SlotPattern.parse) = .ok patterns ∧
      tdd .khz30 patterns = .ok frame ∧ (∀ pattern ∈ patterns, pattern.Lettered) ∧
      frame.serves (-1) .ul = true ∧
      Set.Ico 9 10 = Set.Ico 9 209 ∩ frame.firstRun .ul (-1) ∧
      Set.Ico 10 14 ∩ frame.firstRun .ul (-1) = ∅ ∧
      ¬∃ symbol < symbolsPerSlot, frame.symbolUse 2 symbol = .dl := by
  have hparse : ["DDDDDDDDDDDDDD", "GDDDGDDGUUGUUG", "gggggggggggggg"].mapM SlotPattern.parse =
      .ok patterns := rfl
  have hletters : ∀ pattern ∈ patterns, pattern.Lettered := by
    intro pattern hpattern
    obtain ⟨text, -, htext⟩ := exists_of_mem_right (mapM_eq_ok.mp hparse) hpattern
    exact SlotPattern.lettered_iff_exists_parse.mpr ⟨text, htext⟩
  have hframe : tdd .khz30 patterns = .ok frame := rfl
  obtain ⟨hserves, -, hclip⟩ := queries_agree hframe hletters (-1) .ul
  refine ⟨hparse, hframe, hletters, hserves.mpr ⟨8, by decide, rfl⟩, ?_, ?_, ?_⟩
  · exact (((hclip 9 200).1 9 1).mp rfl).2
  · exact (hclip 10 4).2.mp rfl
  · exact (queries_agree hframe hletters 2 .dl).1.not.mp (by decide)

end FrameStructure.SeveralRuns

end OpenFronthaul
