import OpenFronthaul.Proofs.Receiver.Recording

/-!
# Generations of a bucket

A receiver that knows the map of a slot empties a bucket as soon as a packet comes that finds as many
sections in it as the map has elements.  It does not know which slot they came from.  When packets
have one section each, the history of a bucket is thus cut into generations of that many sections,
counted from its first one, and the bucket holds the last of them (`entries_takeIn`).  Whether these
are the sections of the latest slot alone depends on what was recorded before
(`generation_suffix_iff`).
-/

namespace OpenFronthaul

/-- The last generation of a history that is cut into generations of the given size. -/
def generation (size : ℕ) (history : List Section) : List Section :=
  history.drop ((history.length - 1) / size * size)

section Generation

variable {size : ℕ} {history before own : List Section}

/-- One more section joins the last generation, or starts one of its own when that was full. -/
lemma generation_append_singleton (hsize : 0 < size) (info : Section) :
    generation size (history ++ [info]) =
      if size ≤ (generation size history).length then [info]
      else generation size history ++ [info] := by
  have hdiv := Nat.div_add_mod (history.length - 1) size
  have hmod := Nat.mod_lt (history.length - 1) hsize
  rw [Nat.mul_comm] at hdiv
  have hlength : (generation size history).length =
      history.length - (history.length - 1) / size * size := List.length_drop
  have hlast : (history ++ [info]).length - 1 = history.length := by simp
  rw [generation, hlast]
  split_ifs with hfull
  · -- the last generation is full, so the whole history is made of full generations
    have hwhole : history.length = ((history.length - 1) / size + 1) * size := by
      rw [Nat.add_mul, Nat.one_mul]
      omega
    have hmul : history.length / size * size = history.length := by
      rw [Nat.div_mul_cancel]
      exact ⟨_, hwhole.trans (Nat.mul_comm _ _)⟩
    rw [hmul, List.drop_left]
  · have hsame : history.length / size = (history.length - 1) / size := by
      apply Nat.div_eq_of_lt_le
      · omega
      · rw [Nat.add_mul, Nat.one_mul]
        omega
    rw [hsame, List.drop_append_of_le_length (by omega), generation]

/-- The last generation is made of the latest sections alone when it starts behind the others. -/
lemma generation_suffix_iff :
    generation size (before ++ own) <:+ own ↔
      before.length ≤ (before.length + own.length - 1) / size * size := by
  rw [generation, List.length_append]
  constructor
  · intro hsuffix
    have hle := hsuffix.length_le
    rw [List.length_drop, List.length_append] at hle
    omega
  · intro hle
    rw [List.drop_append, List.drop_eq_nil_of_le hle, List.nil_append]
    exact List.drop_suffix _ _

/-- Behind full generations, sections that make one more are the last of them. -/
lemma generation_of_full (hbefore : size ∣ before.length) (hown : own.length = size) :
    generation size (before ++ own) = own := by
  rw [generation, List.length_append, hown]
  rcases Nat.eq_zero_or_pos size with rfl | hsize
  · obtain rfl := List.length_eq_zero_iff.mp (Nat.eq_zero_of_zero_dvd hbefore)
    rw [Nat.mul_zero, List.drop_zero, List.nil_append]
  · obtain ⟨count, hcount⟩ := hbefore
    have hdiv : (before.length + size - 1) / size * size = before.length := by
      rw [hcount, Nat.add_sub_assoc hsize, Nat.mul_add_div hsize,
        Nat.div_eq_of_lt (Nat.sub_lt hsize Nat.one_pos), Nat.add_zero, Nat.mul_comm]
    rw [hdiv, List.drop_left]

end Generation

namespace Receiver

variable {c : FlowContext} {key : SectionKey} {data : Bytes} {store : SectionStore}
  {map : PrbMap} {history : List Section}

/-! ## One packet -/

/-- The sections of a packet that are recorded in a bucket. -/
def recordedIn (c : FlowContext) (key : SectionKey) (data : Bytes) (store : SectionStore) :
    List Section :=
  if changed? c data store = some key then recorded c data store else []

/-- A packet that declares no more than one section. -/
def Single (data : Bytes) : Prop :=
  ∀ declared ∈ declared? data, declared = 1

lemma length_leading_le (parsed : MessageHeader.Parsed) (count index : ℕ) (data : Bytes) :
    (leading c parsed count index data).length ≤ count := by
  induction count generalizing index data with
  | zero => exact le_rfl
  | succ count ih =>
    rcases hbody : body c parsed index data with e | ⟨s, rest⟩
    · rw [leading_of_error count hbody]
      exact Nat.zero_le _
    · rw [leading_of_ok count hbody, List.length_cons]
      exact Nat.succ_le_succ (ih _ _)

lemma length_readable_le (h : Single data) : (readable c data).length ≤ 1 := by
  unfold readable
  unfold Single declared? at h
  split
  case h_1 parsed haccept =>
    rw [haccept] at h
    have hone : parsed.sections = 1 := h _ rfl
    rw [hone]
    exact length_leading_le parsed 1 0 _
  case h_2 => exact Nat.zero_le _

/-- A packet with one section brings the last generation of a bucket up to date. -/
lemma entries_decode (hmap : c.map = some map) (hsize : 0 < map.size) (hsingle : Single data)
    (counts : ReceiveCounts) (hentries : store.entries key = generation map.size history) :
    (decode c data counts store).2.2.entries key =
      generation map.size (history ++ recordedIn c key data store) := by
  obtain ⟨hbucket, hstay⟩ := decode_updates c data counts store
  by_cases hkey : changed? c data store = some key
  · have hupdates := hbucket key hkey
    have hcapacity : (store.entries key).length ≤ store.capacity := SectionStore.length_entries_le
    have hbase : base c store key =
        if map.size ≤ (store.entries key).length then [] else store.entries key := by
      rw [base, hmap]
    have hrecorded : recorded c data store =
        (readable c data).take (store.capacity - (base c store key).length) := by
      rw [recorded, hkey]
    -- a packet that changes a bucket has a section that can be read, and this one has no other
    obtain ⟨info, hinfo⟩ : ∃ info, readable c data = [info] := by
      rw [← List.length_eq_one_iff]
      refine le_antisymm (length_readable_le hsingle) ?_
      rw [changed?, Option.filter_eq_some_iff] at hkey
      have hsome := hkey.2
      rw [Bool.and_eq_true, Bool.not_eq_true', List.isEmpty_eq_false_iff] at hsome
      exact List.length_pos_iff.mpr hsome.2
    rw [hupdates.entries_self, recordedIn, if_pos hkey, hrecorded, hinfo]
    rcases Nat.eq_zero_or_pos (store.capacity - (base c store key).length) with hroom | hroom
    · -- a bucket without room is not emptied either: it was full before it was a generation
      rw [hroom, List.take_zero, List.append_nil, List.append_nil, hbase, if_neg, hentries]
      intro hfull
      rw [hbase, if_pos hfull, List.length_nil] at hroom
      omega
    · rw [List.take_of_length_le (by rw [List.length_singleton]; omega),
        generation_append_singleton hsize, hbase, hentries]
      split_ifs
      · rfl
      · rfl
  · rw [recordedIn, if_neg hkey, List.append_nil, ← hentries]
    rcases hother : changed? c data store with _ | other
    · rw [hstay hother]
    · rw [(hbucket other hother).entries_eq, Function.update_of_ne]
      rintro rfl
      exact hkey hother

/-! ## Packets in a row -/

/-- What is left of a receiver when it has taken in packets one after another. -/
def takeIn (c : FlowContext) (packets : List Bytes) (r : ReceiveCounts × SectionStore) :
    ReceiveCounts × SectionStore :=
  packets.foldl (fun r data => (decode c data r.1 r.2).2) r

/-- The sections that are recorded in a bucket while packets are taken in one after another. -/
def historyIn (c : FlowContext) (key : SectionKey) :
    List Bytes → ReceiveCounts × SectionStore → List Section
  | [], _ => []
  | data :: packets, r =>
    recordedIn c key data r.2 ++ historyIn c key packets (decode c data r.1 r.2).2

lemma recordedIn_subset_readable : recordedIn c key data store ⊆ readable c data := by
  unfold recordedIn recorded
  split_ifs
  · split
    · exact List.take_subset _ _
    · exact List.nil_subset _
  · exact List.nil_subset _

/-- What is recorded was carried by one of the packets. -/
lemma historyIn_subset (packets : List Bytes) (r : ReceiveCounts × SectionStore) :
    historyIn c key packets r ⊆ packets.flatMap (readable c) := by
  induction packets generalizing r with
  | nil => exact List.nil_subset _
  | cons data packets ih =>
    rw [historyIn, List.flatMap_cons]
    exact List.append_subset.mpr
      ⟨List.Subset.trans recordedIn_subset_readable (List.subset_append_left _ _),
        List.Subset.trans (ih _) (List.subset_append_right _ _)⟩

lemma historyIn_append (packets more : List Bytes) (r : ReceiveCounts × SectionStore) :
    historyIn c key (packets ++ more) r =
      historyIn c key packets r ++ historyIn c key more (takeIn c packets r) := by
  induction packets generalizing r with
  | nil => rfl
  | cons data packets ih =>
    rw [List.cons_append, historyIn, ih, historyIn, List.append_assoc]
    rfl

/-- A bucket holds the last generation of its history.  By induction on the packets, one step of
which is `entries_decode`. -/
theorem entries_takeIn (hmap : c.map = some map) (hsize : 0 < map.size) {packets : List Bytes}
    (hsingle : ∀ data ∈ packets, Single data) {r : ReceiveCounts × SectionStore}
    (hentries : r.2.entries key = generation map.size history) :
    (takeIn c packets r).2.entries key =
      generation map.size (history ++ historyIn c key packets r) := by
  induction packets generalizing r history with
  | nil => rwa [historyIn, List.append_nil]
  | cons data packets ih =>
    obtain ⟨hdata, hpackets⟩ := List.forall_mem_cons.mp hsingle
    have hstep := entries_decode hmap hsize hdata r.1 hentries
    have hrest := ih hpackets hstep
    rw [historyIn, ← List.append_assoc]
    exact hrest

end Receiver

end OpenFronthaul
