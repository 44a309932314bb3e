import OpenFronthaul.Proofs.Receiver.Elements

/-!
# Both ends of a link in step

A producer empties the bucket of a slot before it builds the map for it.  The receiver is not told:
it empties a bucket when a packet comes that finds as many sections there as the map has elements.
Where no slot leaves an element out, every slot fills its bucket, so the bucket of the receiver is
empty or full whenever a slot starts, and both ends come to the same sections in the same order
(`Link.runs_mirror`).  The sections differ in what the wire does not carry (`Section.mirrored`).
-/

namespace OpenFronthaul

open SectionStore

/-- A section as the other end of a link has it: without the marks of its element and without user
data, and with the sample width that four bits can say. -/
def Section.mirrored (s : Section) : Section :=
  { s with
    iqWidth := SampleWidth.received s.iqWidth
    elementBegin := false
    elementEnd := false
    pointers := noPointers }

/-- A section with a number of resource blocks that the wire can carry is delivered as it is, to any
receiver. -/
lemma Section.delivered_eq_mirrored {s : Section} (hle : s.numPrb.toNat ≤ 255)
    (hall : s.allPrbs = false) (carrierPrbs : Option UInt16) :
    s.delivered carrierPrbs = s.mirrored := by
  have hnot : ¬255 < s.numPrb.toNat := Nat.not_lt.mpr hle
  rw [delivered, mirrored, if_neg hnot, decide_eq_false hnot, hall]

/-- Both ends of a link: a producer, and a receiver with its store. -/
structure Link where
  /-- The sending end. -/
  producer : Producer
  /-- What the receiver has met. -/
  counts : ReceiveCounts
  /-- What the receiver has recorded. -/
  store : SectionStore

/-- What a receiver knows of a packet with an element of a map. -/
structure FlowContext.Hears (c : FlowContext) (settings : ProducerSettings) (map : PrbMap)
    (o : Producer.Order) (e : PrbElement) : Prop where
  follows : c.Follows settings o
  map_eq : c.map = some map
  usesMap_eq : c.usesMap = false
  knows : c.Knows o e

namespace Link

open Producer

section Slots

variable {map : PrbMap} {o : Order} {link after : Link}

/-- A slot on a link: the producer empties the bucket of the order and builds the map, and the
receiver decodes the packets in their order. -/
inductive Serves (map : PrbMap) (o : Order) (link : Link) :
    List (Except Error Message) → Link → Prop
  | intro {emptied built : Producer} {sent : List (FlowContext × Packet)}
      (empties : (emptyBucket o.key).run link.producer = (.ok (), emptied))
      (builds : (buildMap o map).run emptied = (.ok (sent.map Prod.snd), built))
      (hears : List.Forall₂ (fun x y => y.1.Hears built.settings map o x.1)
        (map.elements.zipIdx.filter fun x => keeps built.settings o x.1) sent) :
      Serves map o link (Receiver.decodeEach sent (link.counts, link.store)).1
        ⟨built, (Receiver.decodeEach sent (link.counts, link.store)).2.1,
          (Receiver.decodeEach sent (link.counts, link.store)).2.2⟩

/-- Slots on a link, one after another. -/
inductive Runs (map : PrbMap) (start : Link) : List Order → Link → Prop
  | start : Runs map start [] start
  | slot {orders : List Order} {o : Order} {link after : Link}
      {results : List (Except Error Message)} (runs : Runs map start orders link)
      (serves : Serves map o link results after) : Runs map start (orders ++ [o]) after

/-- A map that goes over the wire as it is. -/
structure Plain (map : PrbMap) : Prop where
  size_pos : 0 < map.size
  usable : ∀ e ∈ map.elements, e.Usable
  numPrb_le : ∀ e ∈ map.elements, e.numPrb.toNat ≤ 255
  sized : ∀ e ∈ map.elements, e.weightUpdate = true → e.weights.WellSized

/-- An order for which the slot leaves no element out, and which the receiver has a bucket for. -/
structure Covered (settings : ProducerSettings) (store : SectionStore) (map : PrbMap) (o : Order) :
    Prop where
  context_eq : o.context = rotationContext o.slot
  hasKey : store.hasKey o.key = true
  keeps : ∀ e ∈ map.elements, keeps settings o e = true

lemma Covered.slotKey_eq {settings : ProducerSettings} {store : SectionStore}
    (h : Covered settings store map o) : o.slotKey = o.key := by
  rw [Order.slotKey, ← h.context_eq]
  rfl

lemma run_emptyBucket_eq_ok {p emptied : Producer} {key : SectionKey}
    (h : (emptyBucket key).run p = (.ok (), emptied)) :
    ∃ store, emptied = { p with store } ∧ Updates p.store key [] store := by
  rw [emptyBucket, run_bind, run_get] at h
  dsimp only at h
  rcases hreset : p.store.reset key with e | store
  · rw [hreset] at h
    cases h
  · rw [hreset] at h
    cases h
    exact ⟨store, rfl, updates_of_reset hreset⟩

/-- A receiver that hears the packets of all elements decodes them, and its bucket holds their
sections, whether it was empty or full before. -/
lemma decodeEach_of_hears {settings : ProducerSettings} {store : SectionStore}
    {sent : List (FlowContext × Packet)} (hplain : Plain map) (hcovered : Covered settings store map o)
    (hcapacity : map.size ≤ store.capacity)
    (hfull : store.entries o.key = [] ∨ (store.entries o.key).length = map.size)
    (hpackets : List.Forall₂ (fun x y => IsElementPacket settings o x.1 x.2 y.2)
      map.elements.zipIdx sent)
    (hhears : List.Forall₂ (fun x y => y.1.Hears settings map o x.1) map.elements.zipIdx sent)
    (counts : ReceiveCounts) :
    (∀ result ∈ (Receiver.decodeEach sent (counts, store)).1, ∃ m, result = .ok m) ∧
      Updates store o.key
        ((map.elements.zipIdx.filterMap (recordFor? settings o)).map Section.mirrored)
        (Receiver.decodeEach sent (counts, store)).2.2 := by
  have hrow := forall₂_mem_and hpackets hhears
  have hheard : ∀ y ∈ sent, y.1.Follows settings o ∧ y.1.map = some map ∧
      Receiver.readable y.1 y.2.message ≠ [] := by
    intro y hy
    obtain ⟨x, hx, -, -, hpacket, hhears⟩ := exists_of_mem_right hrow hy
    have hmem := List.fst_mem_of_mem_zipIdx hx
    exact ⟨hhears.follows, hhears.map_eq, Receiver.readable_ne_nil_of_knows (hplain.usable _ hmem)
      (hplain.sized _ hmem) hhears.knows hhears.follows hhears.usesMap_eq hpacket⟩
  have hread := fun y hy => (hheard y hy).2.2
  have hlength : map.elements.zipIdx.length = map.size := List.length_zipIdx
  have hjoins : Receiver.Joins sent o.slotKey store [] := by
    rw [← hlength] at hcapacity
    refine Receiver.joins_of_elements hpackets (fun y hy => (hheard y hy).1)
      (fun y hy known hknown => ?_) (hcovered.slotKey_eq ▸ hcovered.hasKey) hcapacity hlength.le
      fun y hy => ?_
    · rw [(hheard y hy).2.1] at hknown
      exact (Option.some.inj hknown).symm
    · rw [hcovered.slotKey_eq]
      exact Receiver.base_eq_nil map (hfull.imp_right fun h => ⟨(hheard y hy).2.1, h.ge⟩)
  have hsections : Receiver.readableEach sent =
      (map.elements.zipIdx.filterMap (recordFor? settings o)).map Section.mirrored := by
    refine Receiver.readableEach_of_elements (hrow.imp ?_) hread
    rintro x y ⟨hx, -, hpacket, hhears⟩
    have hmem := List.fst_mem_of_mem_zipIdx hx
    refine ⟨hpacket, hplain.usable _ hmem, hhears.follows, hhears.usesMap_eq, fun info hinfo => ?_⟩
    obtain ⟨start, count, -, rfl⟩ := recordFor?_eq_some.mp hinfo
    exact Section.delivered_eq_mirrored (hplain.numPrb_le _ hmem) rfl _
  -- only a packet makes the receiver empty a full bucket, so there has to be one
  have hne : sent ≠ [] := by
    rintro rfl
    rw [hrow.length_eq] at hlength
    exact hplain.size_pos.ne hlength
  obtain ⟨hiff, hupdates⟩ := Receiver.decodeEach_fills hjoins (absurd · hne) counts
  rw [← hsections, ← hcovered.slotKey_eq]
  exact ⟨hiff.mpr hread, hupdates hread⟩

/-- One slot: every packet is decoded, and both buckets of the order hold the sections of all
elements. -/
lemma Serves.updates {results : List (Except Error Message)} (h : Serves map o link results after)
    (hplain : Plain map) (hcovered : Covered link.producer.settings link.store map o)
    (hcapacity : map.size ≤ link.store.capacity)
    (hfull : link.store.entries o.key = [] ∨ (link.store.entries o.key).length = map.size) :
    ∃ infos : List Section, infos.length = map.size ∧
      (∀ result ∈ results, ∃ m, result = .ok m) ∧
      after.producer.settings = link.producer.settings ∧
      Updates link.producer.store o.key infos after.producer.store ∧
      Updates link.store o.key (infos.map Section.mirrored) after.store := by
  obtain @⟨emptied, built, sent, hempties, hbuilds, hhears⟩ := h
  obtain ⟨store, rfl, hemptied⟩ := run_emptyBucket_eq_ok hempties
  obtain ⟨htraces, -⟩ := run_buildMap_traces hbuilds
  obtain ⟨hsettings, hpackets⟩ := run_buildMap_eq_ok hbuilds
  rw [List.forall₂_map_right_iff] at hpackets
  rw [hsettings] at hhears
  have hstore := htraces.store
  dsimp only at hsettings hpackets hhears hstore
  rw [hemptied.entries_self, List.nil_append] at hstore
  generalize link.producer.settings = settings at *
  -- no element is left out
  have hall : (map.elements.zipIdx.filter fun x => keeps settings o x.1) = map.elements.zipIdx :=
    List.filter_eq_self.mpr fun x hx => hcovered.keeps x.1 (List.fst_mem_of_mem_zipIdx hx)
  rw [hall] at hpackets hhears
  obtain ⟨hok, hreceived⟩ :=
    decodeEach_of_hears hplain hcovered hcapacity hfull hpackets hhears link.counts
  refine ⟨map.elements.zipIdx.filterMap (recordFor? settings o), ?_, hok, hsettings,
    hemptied.trans hstore, hreceived⟩
  rw [length_filterMap_recordFor?, hall, List.length_zipIdx, PrbMap.size]

/-! ## Slots in a row -/

/-- What holds between two slots: the receiver has a bucket either empty or full, and it has the
sections of the producer in the buckets of all slots so far. -/
structure InStep (start : Link) (map : PrbMap) (orders : List Order) (link : Link) : Prop where
  settings_eq : link.producer.settings = start.producer.settings
  hasKey_eq : ∀ key, link.store.hasKey key = start.store.hasKey key
  capacity_eq : link.store.capacity = start.store.capacity
  full : ∀ key, link.store.entries key = [] ∨ (link.store.entries key).length = map.size
  mirrors : ∀ o ∈ orders, link.store.entries o.key =
    (link.producer.store.entries o.key).map Section.mirrored

/-- A slot keeps both ends in step. -/
lemma InStep.slot {start : Link} {orders : List Order} {results : List (Except Error Message)}
    (h : InStep start map orders link) (hserves : Serves map o link results after)
    (hplain : Plain map) (hcovered : Covered start.producer.settings start.store map o)
    (hcapacity : map.size ≤ start.store.capacity) :
    InStep start map (orders ++ [o]) after ∧ (∀ result ∈ results, ∃ m, result = .ok m) ∧
      (after.store.entries o.key).length = map.size ∧
      ∀ key, key ≠ o.key → after.store.entries key = link.store.entries key ∧
        after.producer.store.entries key = link.producer.store.entries key := by
  have hcovered' : Covered link.producer.settings link.store map o :=
    ⟨hcovered.context_eq, (h.hasKey_eq o.key).trans hcovered.hasKey,
      h.settings_eq ▸ hcovered.keeps⟩
  obtain ⟨infos, hlength, hok, hsettings, hsent, hreceived⟩ :=
    hserves.updates hplain hcovered' (h.capacity_eq ▸ hcapacity) (h.full o.key)
  have hother : ∀ key, key ≠ o.key → after.store.entries key = link.store.entries key ∧
      after.producer.store.entries key = link.producer.store.entries key := by
    intro key hkey
    rw [hreceived.entries_eq, hsent.entries_eq, Function.update_of_ne hkey,
      Function.update_of_ne hkey]
    exact ⟨rfl, rfl⟩
  have hself : (after.store.entries o.key).length = map.size := by
    rw [hreceived.entries_self, List.length_map, hlength]
  have hmirror : after.store.entries o.key =
      (after.producer.store.entries o.key).map Section.mirrored := by
    rw [hreceived.entries_self, hsent.entries_self]
  refine ⟨⟨hsettings.trans h.settings_eq, fun key => ?_, ?_, fun key => ?_, ?_⟩, hok, hself, hother⟩
  · exact (hreceived.hasKey_eq key).trans (h.hasKey_eq key)
  · exact hreceived.capacity_eq.trans h.capacity_eq
  · by_cases hkey : key = o.key
    · exact .inr (hkey ▸ hself)
    · rw [(hother key hkey).1]
      exact h.full key
  · -- an earlier order has the bucket of this one when their slots share a rotation context
    intro other hmem
    by_cases hkey : other.key = o.key
    · rw [hkey]
      exact hmirror
    · obtain hmem | hmem := List.mem_append.mp hmem
      · rw [(hother _ hkey).1, (hother _ hkey).2]
        exact h.mirrors other hmem
      · rw [List.mem_singleton.mp hmem] at hkey
        exact absurd rfl hkey

/-- Slots in a row keep both ends in step.  By induction on the slots. -/
lemma Runs.inStep {start : Link} {orders : List Order} (h : Runs map start orders link)
    (hplain : Plain map) (hcapacity : map.size ≤ start.store.capacity)
    (hempty : ∀ key, start.store.entries key = [])
    (hcovered : ∀ o ∈ orders, Covered start.producer.settings start.store map o) :
    InStep start map orders link := by
  induction h with
  | start => exact ⟨rfl, fun _ => rfl, rfl, fun key => .inl (hempty key), nofun⟩
  | slot runs serves ih =>
    have hearlier := fun o ho => hcovered o (List.mem_append_left _ ho)
    have hlast := hcovered _ (List.mem_append_right _ List.mem_cons_self)
    exact ((ih hearlier).slot serves hplain hlast hcapacity).1

/-- Whatever slots were served on a link before, when another one is served every packet is decoded,
and the receiver has for every slot so far the sections of the producer in their order, up to what
the wire does not carry; the bucket of the slot has a section for every element, and all other
buckets of both ends stay. -/
theorem runs_mirror {start : Link} {orders : List Order} {results : List (Except Error Message)}
    {direction : Direction} {elements : List PrbElement}
    (hmap : PrbMap.create direction elements = .ok map) (hsize : 0 < map.size)
    (hprbs : ∀ e ∈ map.elements, e.numPrb.toNat ≤ 255)
    (hsized : ∀ e ∈ map.elements, e.weightUpdate = true → e.weights.WellSized)
    (hcapacity : map.size ≤ start.store.capacity) (hempty : ∀ key, start.store.entries key = [])
    (hcovered : ∀ other ∈ orders ++ [o], Covered start.producer.settings start.store map other)
    (hruns : Runs map start orders link) (hserves : Serves map o link results after) :
    (∀ result ∈ results, ∃ m, result = .ok m) ∧
      (∀ other ∈ orders ++ [o], after.store.entries other.key =
        (after.producer.store.entries other.key).map Section.mirrored) ∧
      (after.store.entries o.key).length = map.size ∧
      ∀ key, key ≠ o.key → after.store.entries key = link.store.entries key ∧
        after.producer.store.entries key = link.producer.store.entries key := by
  have hplain : Plain map := ⟨hsize, (PrbMap.create_eq_ok hmap).2, hprbs, hsized⟩
  have hearlier := hruns.inStep hplain hcapacity hempty
    fun other hother => hcovered other (List.mem_append_left _ hother)
  obtain ⟨hafter, hok, hlength, hother⟩ := hearlier.slot hserves hplain
    (hcovered o (List.mem_append_right _ List.mem_cons_self)) hcapacity
  exact ⟨hok, hafter.mirrors, hlength, hother⟩

end Slots

/-! ## Two slots of one rotation context -/

namespace ReusedContext

/-- A carrier in paired spectrum with room for four sections at each end. -/
def start : Link where
  producer :=
    { settings :=
        { mu := .khz30, tagging := .untagged, framer := {}, frame := .fdd .khz30, mtu := 1500 }
      store := ⟨1, 1, 4, Vector.replicate _ (.blank 4)⟩ }
  counts := {}
  store := ⟨1, 1, 4, Vector.replicate _ (.blank 4)⟩

/-- Two elements, the second of which does not say how wide its samples are. -/
def map : PrbMap where
  direction := .dl
  elements := [{ numPrb := 50, iqWidth := 9 }, { startPrb := 50, numPrb := 20, iqWidth := 0 }]

/-- The order for a slot. -/
def order (slot : ℕ) : Order :=
  ⟨⟨.dl, 0, 0⟩, slot, .a, rotationContext slot⟩

/-- What the receiver knows of the flow. -/
def context : FlowContext :=
  { mu := .khz30, carrier := 0, antenna := 0, map := some map }

/-- What the producer does for a slot. -/
def work (slot : ℕ) : Producer.Step (List Packet) := do
  emptyBucket (order slot).key
  buildMap (order slot) map

lemma exists_serves {slot : ℕ} {link : Link} {packets : List Packet} {built : Producer}
    (hsettings : link.producer.settings = start.producer.settings)
    (h : (work slot).run link.producer = (.ok packets, built)) :
    ∃ results after, Serves map (order slot) link results after ∧ after.producer = built := by
  obtain ⟨_, emptied, hempties, hbuilds⟩ := run_bind_eq_ok.mp h
  obtain ⟨store, rfl, -⟩ := run_emptyBucket_eq_ok hempties
  obtain ⟨hsame, hpackets⟩ := run_buildMap_eq_ok hbuilds
  have hsent : (packets.map fun packet => (context, packet)).map Prod.snd = packets := by
    rw [List.map_map]
    exact List.map_id packets
  rw [← hsent] at hbuilds
  refine ⟨_, _, .intro hempties hbuilds ?_, rfl⟩
  rw [hsame, List.forall₂_map_right_iff]
  dsimp only at hpackets ⊢
  rw [hsettings] at hpackets ⊢
  exact hpackets.imp fun x packet _ => ⟨⟨rfl, rfl, rfl, rfl⟩, rfl, rfl, fun h => nomatch h.1⟩

lemma plain_map : Plain map :=
  ⟨by decide, (PrbMap.create_eq_ok (show PrbMap.create .dl map.elements = .ok map from rfl)).2,
    by decide, by simp [map]⟩

lemma covered_order (slot : ℕ) (hslot : slot = 0 ∨ slot = 4) :
    Covered start.producer.settings start.store map (order slot) := by
  rcases hslot with rfl | rfl
  · exact ⟨rfl, rfl, by decide⟩
  · exact ⟨rfl, rfl, by decide⟩

/-- The second of two slots of one rotation context takes the place of the first at both ends. -/
theorem runs_mirror_reusedContext :
    ∃ link after results results', Serves map (order 0) start results link ∧
      Serves map (order 4) link results' after ∧ (order 0).key = (order 4).key ∧
      (∀ result ∈ results', ∃ m, result = .ok m) ∧
      after.store.entries (order 4).key =
        (after.producer.store.entries (order 4).key).map Section.mirrored ∧
      (after.store.entries (order 4).key).length = 2 := by
  have hfirst : ((work 0).run start.producer).1.isOk = true := by decide +kernel
  have hsecond : ((work 4).run ((work 0).run start.producer).2).1.isOk = true := by decide +kernel
  have hstart : ∀ key, start.store.entries key = [] :=
    SectionStore.entries_create (show SectionStore.create 1 1 4 = .ok start.store from rfl)
  obtain ⟨packets, built, hrun⟩ := exists_run_eq_ok hfirst
  rw [hrun] at hsecond
  obtain ⟨packets', built', hrun'⟩ := exists_run_eq_ok hsecond
  obtain ⟨results, link, hserves, rfl⟩ :=
    exists_serves (show start.producer.settings = start.producer.settings from rfl) hrun
  obtain ⟨-, -, -, hsettings, -⟩ :=
    hserves.updates plain_map (covered_order 0 (.inl rfl)) (by decide) (.inl (hstart _))
  obtain ⟨results', after, hserves', -⟩ := exists_serves hsettings hrun'
  have hruns : Runs map start ([] ++ [order 0]) link := .slot .start hserves
  have hcovered : ∀ other ∈ ([] ++ [order 0]) ++ [order 4],
      Covered start.producer.settings start.store map other := by
    intro other hother
    rcases List.mem_append.mp hother with hother | hother
    · rw [List.mem_singleton.mp hother]
      exact covered_order 0 (.inl rfl)
    · rw [List.mem_singleton.mp hother]
      exact covered_order 4 (.inr rfl)
  obtain ⟨hok, hmirror, hlength, -⟩ := runs_mirror
    (show PrbMap.create .dl map.elements = .ok map from rfl) plain_map.size_pos
    plain_map.numPrb_le plain_map.sized (by decide) hstart hcovered hruns hserves'
  exact ⟨link, after, results, results', hserves, hserves', rfl, hok,
    hmirror (order 4) (by simp), hlength⟩

end ReusedContext

end Link

end OpenFronthaul
