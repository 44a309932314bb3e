import OpenFronthaul.Proofs.Producer.Success

/-!
# Maps with more elements than a bucket

A map may have 275 elements, but a bucket of the store holds 66 sections unless another limit is
asked for.  So a map whose elements can be sent one by one cannot always be sent as a whole: it is
sent exactly when no more elements keep symbols than the bucket has places and the packet pool has
slots, and the producer reports an exhausted resource otherwise (`Producer.buildMap_sends_iff`).
-/

namespace OpenFronthaul

/-! ## Messages under another section id -/

/-- A section can be written under every id that fits, and is as long for each. -/
lemma Section.exists_encode_renamed {s : Section} {type : SectionType} {wireId other : ℕ}
    {extended : Bool} {bytes : Bytes} (h : s.encode type wireId extended = .ok bytes) (id : UInt16)
    (hother : other < 2 ^ SectionWord.id.width) :
    ∃ bytes', ({ s with id } : Section).encode type other extended = .ok bytes' ∧
      bytes'.length = bytes.length := by
  obtain ⟨hfits, hsymbols, offset, hoffset, rfl⟩ := encode_eq_ok.mp h
  refine ⟨_, encode_eq_ok.mpr ⟨⟨hother, hfits.startPrb, hfits.reMask, hfits.numSymbols,
    hfits.beamId⟩, hsymbols, offset, hoffset, rfl⟩, ?_⟩
  rw [List.length_append, List.length_append, Bytes.length_ofNat, Bytes.length_ofNat]

/-- A message of one section can be written under every id that can be tagged, and is as long for
each. -/
lemma Message.exists_segments_renamed {m : Message} {mu : Numerology} {tagging : IdTagging}
    {segments : List Segment} {s : ExtendedSection} (hsections : m.sections = [s])
    (h : m.segments mu tagging = .ok segments) {id : UInt16} {wireId : ℕ}
    (htag : tagging.tag id mu = .ok wireId) :
    ∃ segments', ({ m with sections := [{ s with info := { s.info with id } }] } : Message).segments
        mu tagging = .ok segments' ∧
      (segments'.flatMap Segment.bytes).length = (segments.flatMap Segment.bytes).length := by
  simp only [Message.segments, hsections, List.mapM_cons, List.mapM_nil, encodeSection, bind_eq_ok,
    pure_eq_ok] at h ⊢
  obtain ⟨header, hheader, _, ⟨_, ⟨_, -, body, hbody, chain, hchain, rfl⟩, _, rfl, rfl⟩, rfl⟩ := h
  obtain ⟨body', hbody', hlength⟩ :=
    Section.exists_encode_renamed hbody id (IdTagging.tag_lt htag)
  refine ⟨_, ⟨header, hheader, _,
    ⟨_, ⟨wireId, htag, body', hbody', chain, hchain, rfl⟩, _, rfl, rfl⟩, rfl⟩, ?_⟩
  simp only [Segment.flatMap_coalesce, List.flatten_cons, List.flatMap_cons, List.flatMap_append,
    List.length_append, Segment.bytes, hlength]

namespace Producer

variable {settings : ProducerSettings} {p : Producer} {o : Order} {e : PrbElement}

/-! ## Elements at other places -/

/-- An element that has a packet has one at every place whose number can be tagged, and with every
sequence number. -/
lemma IsFramed.renamed {sequence : UInt8} {index : ℕ} {packet : Packet}
    (h : IsFramed settings o sequence e index packet) {other wireId : ℕ}
    (htag : settings.tagging.tag (UInt16.ofNat other) settings.mu = .ok wireId)
    (sequence' : UInt8) : ∃ packet', IsFramed settings o sequence' e other packet' := by
  obtain ⟨start, count, m, segments, pooled, hsymbols, hmessage, hvalid, hsegments, hheader⟩ := h
  simp only [elementMessage, bind_eq_ok, pure_eq_ok] at hmessage
  obtain ⟨extensions, hextensions, rfl⟩ := hmessage
  obtain ⟨segments', hsegments', hlength⟩ := Message.exists_segments_renamed rfl hsegments htag
  obtain ⟨packet', hheader'⟩ := exists_addHeader_of_length_eq hheader hlength sequence'
  refine ⟨packet', start, count, _, segments', pooled, hsymbols,
    bind_eq_ok.mpr ⟨extensions, hextensions, rfl⟩, ?_, hsegments', hheader'⟩
  simp only [Message.validate, Message.checkExtensions, guard_eq_ok] at hvalid ⊢
  exact hvalid

/-- An element that some producer with these settings was able to build for the order as a map of
its own. -/
def BuildsAlone (settings : ProducerSettings) (o : Order) (e : PrbElement) : Prop :=
  ∃ p : Producer, p.settings = settings ∧
    ((buildMap o ⟨o.flow.direction, [e]⟩).run p).1.isOk = true

/-- An element that is built alone has a packet at every place whose number can be tagged. -/
lemma BuildsAlone.isFramed (h : BuildsAlone settings o e) (hkeeps : keeps settings o e = true)
    {index wireId : ℕ}
    (htag : settings.tagging.tag (UInt16.ofNat index) settings.mu = .ok wireId)
    (sequence : UInt8) : ∃ packet, IsFramed settings o sequence e index packet := by
  obtain ⟨p, rfl, hok⟩ := h
  obtain ⟨packets, after, hrun⟩ := exists_run_eq_ok hok
  obtain ⟨-, hframed⟩ := run_buildMap_traces hrun
  have hone : ([e].zipIdx.filter fun x => keeps p.settings o x.1) = [(e, 0)] := by
    simp only [List.zipIdx_cons, List.zipIdx_nil, List.filter_cons, hkeeps, if_true,
      List.filter_nil]
  rw [hone, List.zipIdx_cons, List.zipIdx_nil, List.forall₂_cons_left_iff] at hframed
  obtain ⟨packet, _, hpacket, -, -⟩ := hframed
  exact hpacket.renamed htag sequence

/-! ## Whole maps -/

/-- A map of elements that are built alone is built exactly when there is room for the packets of
those that keep symbols, and fails for lack of room otherwise. -/
lemma exists_run_buildMap_iff {map : PrbMap} (hkey : p.store.hasKey o.key = true)
    (halone : ∀ e ∈ map.elements, BuildsAlone p.settings o e)
    (htags : ∀ index < map.size, ∃ wireId,
      p.settings.tagging.tag (UInt16.ofNat index) p.settings.mu = .ok wireId) :
    ((∃ packets after, (buildMap o map).run p = (.ok packets, after)) ↔
      p.Accommodates o (map.elements.countP (keeps p.settings o))) ∧
    ∀ err after, (buildMap o map).run p = (.error err, after) → err.kind = .resource := by
  have hall : (map.elements.take map.size).drop 0 = map.elements := by
    rw [List.drop_zero, PrbMap.size, List.take_length]
  rw [buildMap, buildRange, hall, Nat.zero_min]
  refine exists_run_buildElements_iff hkey fun x hx hkeeps sequence => ?_
  obtain ⟨wireId, htag⟩ := htags x.2 (List.snd_lt_of_mem_zipIdx hx)
  exact (halone x.1 (List.fst_mem_of_mem_zipIdx hx)).isFramed hkeeps htag sequence

/-- A map whose elements can be built alone, and whose places can be tagged, is sent from an empty
bucket of the usual size, with one packet for each element that keeps symbols, exactly when these
are not more than the bucket has places and the packet pool has slots.  Otherwise a resource is
exhausted. -/
theorem buildMap_sends_iff {map : PrbMap} (hcapacity : p.store.capacity = defaultBucketCapacity)
    (hkey : p.store.hasKey o.key = true) (hempty : p.store.entries o.key = [])
    (halone : ∀ e ∈ map.elements, BuildsAlone p.settings o e)
    (htags : ∀ index < map.size, ∃ wireId,
      p.settings.tagging.tag (UInt16.ofNat index) p.settings.mu = .ok wireId) :
    ((∃ packets after, (buildMap o map).run p = (.ok packets, after) ∧
        packets.length = map.elements.countP (keeps p.settings o)) ↔
      map.elements.countP (keeps p.settings o) ≤ defaultBucketCapacity ∧
        p.memory.Admits (map.elements.countP (keeps p.settings o))) ∧
    ∀ err after, (buildMap o map).run p = (.error err, after) → err.kind = .resource := by
  obtain ⟨hbuilt, herror⟩ := exists_run_buildMap_iff hkey halone htags
  have hroom : p.Accommodates o (map.elements.countP (keeps p.settings o)) ↔
      map.elements.countP (keeps p.settings o) ≤ defaultBucketCapacity ∧
        p.memory.Admits (map.elements.countP (keeps p.settings o)) := by
    rw [accommodates_iff, hempty, hcapacity, List.length_nil, Nat.zero_add]
  refine ⟨?_, herror⟩
  rw [← hroom, ← hbuilt]
  constructor
  · rintro ⟨packets, after, hrun, -⟩
    exact ⟨packets, after, hrun⟩
  · rintro ⟨packets, after, hrun⟩
    refine ⟨packets, after, hrun, ?_⟩
    obtain ⟨-, hframed⟩ := run_buildMap_traces hrun
    rw [← hframed.length_eq, List.length_zipIdx, ← List.countP_eq_length_filter]
    calc _ = (map.elements.zipIdx.map Prod.fst).countP (keeps p.settings o) :=
          (List.countP_map ..).symm
      _ = _ := by rw [List.zipIdx_map_fst]

/-! ## A full bucket -/

namespace FullBucket

open BadBeam (producer order)

/-- A map with some elements of one resource block each. -/
def map (count : ℕ) : PrbMap where
  direction := .dl
  elements := (List.range count).map fun i => { startPrb := UInt16.ofNat i, numPrb := 1 }

lemma size_map (count : ℕ) : (map count).size = count := by
  rw [map, PrbMap.size, List.length_map, List.length_range]

lemma create_store : SectionStore.create 1 1 defaultBucketCapacity = .ok producer.store := rfl

lemma hasKey_order : producer.store.hasKey order.key = true := rfl

/-- Each element by itself is sent, also from the map that is one element too long. -/
lemma isOk_alone : ∀ e ∈ (map 67).elements,
    ((buildMap order ⟨order.flow.direction, [e]⟩).run producer).1.isOk = true := by
  decide +kernel

lemma buildsAlone {count : ℕ} (h : count ≤ 67) :
    ∀ e ∈ (map count).elements, BuildsAlone producer.settings order e := fun e he =>
  ⟨producer, rfl, isOk_alone e (List.map_subset _ (List.range_subset.mpr h) he)⟩

lemma exists_tag {count : ℕ} (h : count ≤ 67) : ∀ index < (map count).size, ∃ wireId,
    producer.settings.tagging.tag (UInt16.ofNat index) producer.settings.mu = .ok wireId := by
  intro index hindex
  rw [size_map] at hindex
  have hid : (UInt16.ofNat index).toNat = index := by
    rw [UInt16.toNat_ofNat', Nat.mod_eq_of_lt (by omega)]
  have hmax : producer.settings.tagging.maxId = 4095 := rfl
  refine ⟨index, bind_eq_ok.mpr ⟨(), rfl, check_eq_ok.mpr ⟨?_, congrArg Except.ok hid⟩⟩⟩
  omega

/-- A map that fills the bucket is sent. -/
theorem buildMap_sends_iff_sixtySix :
    PrbMap.create .dl (map 66).elements = .ok (map 66) ∧
      ∃ packets after, (buildMap order (map 66)).run producer = (.ok packets, after) ∧
        packets.length = 66 := by
  have hfewer : 66 ≤ 67 := by decide
  have hempty := SectionStore.entries_create create_store order.key
  have hkept : (map 66).elements.countP (keeps producer.settings order) = 66 := by decide +kernel
  refine ⟨by decide +kernel, ?_⟩
  obtain ⟨hsends, -⟩ := buildMap_sends_iff rfl hasKey_order hempty (buildsAlone hfewer)
    (exists_tag hfewer)
  rw [hkept] at hsends
  exact hsends.mpr ⟨le_rfl, Memory.admits_of_pool rfl _⟩

/-- A map with one element more is accepted, and each of its elements is sent when it is alone, but
the map is not sent. -/
theorem sixtySeven_not_sent :
    PrbMap.create .dl (map 67).elements = .ok (map 67) ∧
      SectionStore.create 1 1 defaultBucketCapacity = .ok producer.store ∧
      (∀ e ∈ (map 67).elements,
        ((buildMap order ⟨order.flow.direction, [e]⟩).run producer).1.isOk = true) ∧
      (∀ index < (map 67).size, ∃ wireId,
        producer.settings.tagging.tag (UInt16.ofNat index) producer.settings.mu = .ok wireId) ∧
      ∃ err after, (buildMap order (map 67)).run producer = (.error err, after) ∧
        err.kind = .resource := by
  have hkept : (map 67).elements.countP (keeps producer.settings order) = 67 := by decide +kernel
  obtain ⟨hbuilt, herror⟩ := exists_run_buildMap_iff hasKey_order (buildsAlone le_rfl)
    (exists_tag le_rfl)
  refine ⟨by decide +kernel, create_store, isOk_alone, exists_tag le_rfl, ?_⟩
  rcases hrun : (buildMap order (map 67)).run producer with ⟨err | packets, after⟩
  · exact ⟨err, after, rfl, herror err after hrun⟩
  · have hplaces := (hbuilt.mp ⟨packets, after, hrun⟩).places
    rw [SectionStore.entries_create create_store, hkept] at hplaces
    exact absurd hplaces (by decide)

end FullBucket

end Producer

end OpenFronthaul
