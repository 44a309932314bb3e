import OpenFronthaul.Proofs.Receiver.Skipping

/-!
# Reference signals over a link

A flow of sounding or channel-state reference signals takes its resource blocks from the map, and the
receiver goes by the place of a section in its message.  A producer sends a message of its own for
every element, so every section is the first of its message, and gets the blocks and the user data of
the first element of the map (`Link.buildMap_gives_first`).  Its id still says which element it was
sent for.
-/

namespace OpenFronthaul

open SectionStore

namespace Receiver

variable {c : FlowContext} {data : Bytes}

/-! ## A success with one section -/

/-- A success with one section leaves that section at the end of its bucket. -/
lemma entries_of_decode_single {key : SectionKey} {counts : ReceiveCounts} {store : SectionStore}
    {m : Message} (htarget : target? c data = some key) (hone : declared? data = some 1)
    (h : (decode c data counts store).1 = .ok m) :
    ∃ s, message c data = .ok m ∧ m.sections = [s] ∧
      (decode c data counts store).2.2.entries key = base c store key ++ [s.info] := by
  have hrecords := records_of_target counts store htarget
  have hmessage := hrecords.message_eq m h
  rw [parse_eq_message] at hmessage
  obtain ⟨-, hnone⟩ | ⟨m', s, hm, hs, hread⟩ := readable_of_single (c := c) hone
  · exact absurd hmessage (hnone m)
  obtain rfl : m' = m := Except.ok.inj (hm.symm.trans hmessage)
  have hlength := hrecords.success_iff.mp ⟨m', h⟩
  rw [hone, Option.some_inj] at hlength
  rcases hchanged : changed? c data store with _ | other
  · rw [recorded, hchanged] at hlength
    cases hlength
  -- the bucket that is changed is that of the packet
  obtain rfl : key = other := by
    obtain ⟨hother, -⟩ := Option.filter_eq_some_iff.mp hchanged
    exact Option.some.inj (htarget.symm.trans hother)
  have hrecorded : recorded c data store = [s.info] := by
    rw [recorded, hchanged, hread] at hlength ⊢
    dsimp only at hlength ⊢
    rw [List.length_take, List.length_singleton] at hlength
    exact List.take_of_length_le (by rw [List.length_singleton]; omega)
  exact ⟨s, hmessage, hs, by rw [(hrecords.bucket_eq key hchanged).entries_self, hrecorded]⟩

end Receiver

namespace Link

open Producer

section Range

variable {map : PrbMap} {o : Order} {p built : Producer} {packets : List Packet}
  {direction : Direction} {elements : List PrbElement} {settings : ProducerSettings}
  {c : FlowContext} {first e : PrbElement} {index : ℕ} {packet : Packet}

/-- A section has the resource blocks and the user data of an element. -/
structure HasRange (s : Section) (e : PrbElement) : Prop where
  startPrb_eq : s.startPrb = e.startPrb
  numPrb_eq : s.numPrb = e.numPrb
  allPrbs_eq : s.allPrbs = false
  pointers_eq : s.pointers = e.pointers

/-- What becomes of the packet of an element on a flow of reference signals, where the first element
of the map is given. -/
structure GivesFirst (settings : ProducerSettings) (map : PrbMap) (o : Order) (first e : PrbElement)
    (index : ℕ) (packet : Packet) : Prop where
  /-- The message has one section with the id of the element and the range of the first one, and it
  is recorded. -/
  gives : ∀ c : FlowContext, c.Follows settings o → c.usesMap = true → c.map = some map →
    ∀ counts store m, (Receiver.decode c packet.message counts store).1 = .ok m →
      ∃ s, m.sections = [s] ∧ s.info.id = UInt16.ofNat index ∧ HasRange s.info first ∧
        (HasRange s.info e ↔ first.startPrb = e.startPrb ∧ first.numPrb = e.numPrb ∧
          first.pointers = e.pointers) ∧
        (Receiver.decode c packet.message counts store).2.2.entries o.slotKey =
          Receiver.base c store o.slotKey ++ [s.info]
  /-- A receiver that steps over the weights, or knows how many there are, decodes it. -/
  decodes : ∀ c : FlowContext, c.Follows settings o → c.usesMap = true → c.map = some map →
    (e.weightUpdate = true → e.weights.WellSized) → c.isSounding = true ∨ c.Knows o e →
    ∀ counts store, store.hasKey o.slotKey = true → map.size ≤ store.capacity →
      ∃ m, (Receiver.decode c packet.message counts store).1 = .ok m

/-- The same flow for a receiver that takes the resource blocks from the message, and that knows how
many weights the element has where it had stepped over them. -/
def withoutMap (c : FlowContext) (e : PrbElement) : FlowContext :=
  { c with
    sounding := none, channelState := none
    weights := if c.isSounding then some e.weights.count else c.weights }

lemma withoutMap_weights (c : FlowContext) (e : PrbElement) :
    c.isSounding = true ∧ (withoutMap c e).weights = some e.weights.count ∨
      c.isSounding = false ∧ (withoutMap c e).weights = c.weights := by
  rcases hsounding : c.isSounding with _ | _
  · exact .inr ⟨rfl, if_neg (by rw [hsounding]; nofun)⟩
  · exact .inl ⟨rfl, if_pos hsounding⟩

lemma follows_withoutMap (h : c.Follows settings o) (e : PrbElement) :
    (withoutMap c e).Follows settings o :=
  ⟨h.mu_eq, h.tagging_eq, h.carrier_eq, h.antenna_eq⟩

/-- The message of an element is read on a flow that goes by the map. -/
lemma exists_message_of_usesMap (h : IsElementPacket settings o e index packet) (he : e.Usable)
    (hfirst : map.elements[0]? = some first) (hfollows : c.Follows settings o)
    (husesMap : c.usesMap = true) (hmap : c.map = some map)
    (hsized : e.weightUpdate = true → e.weights.WellSized)
    (hknows : c.isSounding = true ∨ c.Knows o e) :
    ∃ m, Receiver.message c packet.message = .ok m := by
  obtain ⟨info, header, others, -, hmessage⟩ := Receiver.message_of_isElementPacket he h
  have hplain := follows_withoutMap hfollows e
  -- without the map it is read, and only the extensions can make a difference to that
  have hread : Receiver.readable (withoutMap c e) packet.message ≠ [] := by
    refine Receiver.readable_ne_nil_of_knows he hsized (fun hcarries => ?_) hplain rfl h
    obtain ⟨-, hweights⟩ | ⟨hsounding, hweights⟩ := withoutMap_weights c e
    · exact hweights
    · rw [hweights]
      exact hknows.resolve_left (by rw [hsounding]; nofun) hcarries
  have hone := (Receiver.target?_of_isElementPacket hplain.mu_eq h).2
  obtain ⟨hnil, -⟩ | ⟨m, s, hm, -, -⟩ := Receiver.readable_of_single (c := withoutMap c e) hone
  · exact absurd hnil hread
  rw [hmessage _ hplain.tagging_eq, bind_eq_ok] at hm
  obtain ⟨info', -, hm⟩ := hm
  obtain ⟨⟨exts, rest⟩, hexts, -⟩ := bind_eq_ok.mp hm
  obtain ⟨exts', hexts'⟩ := Receiver.extensions_of_plain (c := c) rfl
    ((withoutMap_weights c e).imp And.left fun hsame => hsame.2.symm) hexts
  rw [hmessage c hfollows.tagging_eq, Receiver.applyMap_of_usesMap husesMap hmap hfirst, ok_bind,
    hexts']
  exact ⟨_, rfl⟩

lemma IsElementPacket.givesFirst (h : IsElementPacket settings o e index packet) (he : e.Usable)
    (hfirst : map.elements[0]? = some first) : GivesFirst settings map o first e index packet := by
  constructor
  case gives =>
    intro c hfollows husesMap hmap counts store m hdecode
    obtain ⟨info, header, others, hinfo, hmessage⟩ := Receiver.message_of_isElementPacket he h
    obtain ⟨htarget, hone⟩ := Receiver.target?_of_isElementPacket hfollows.mu_eq h
    rw [hfollows.bucketOf_eq] at htarget
    obtain ⟨s, hm, hs, hentries⟩ := Receiver.entries_of_decode_single htarget hone hdecode
    rw [hmessage c hfollows.tagging_eq, Receiver.applyMap_of_usesMap husesMap hmap hfirst, ok_bind,
      bind_eq_ok] at hm
    obtain ⟨⟨x, rest⟩, -, hm⟩ := hm
    obtain rfl := Except.ok.inj hm
    obtain rfl := List.singleton_inj.mp hs
    refine ⟨_, rfl, id_of_recordFor? hinfo, ⟨rfl, rfl, rfl, rfl⟩, ?_, hentries⟩
    constructor
    · exact fun hrange => ⟨hrange.startPrb_eq, hrange.numPrb_eq, hrange.pointers_eq⟩
    · exact fun ⟨hstart, hnum, hpointers⟩ => ⟨hstart, hnum, rfl, hpointers⟩
  case decodes =>
    intro c hfollows husesMap hmap hsized hknows counts store hkey hcapacity
    obtain ⟨htarget, hone⟩ := Receiver.target?_of_isElementPacket hfollows.mu_eq h
    rw [hfollows.bucketOf_eq] at htarget
    obtain ⟨hpos, -⟩ := List.getElem?_eq_some_iff.mp hfirst
    -- what is not taken for a bucket of an earlier slot has fewer sections than the map
    have hroom : (Receiver.base c store o.slotKey).length < store.capacity := by
      rw [Receiver.base, hmap]
      dsimp only
      split_ifs with hstale
      · exact hpos.trans_le hcapacity
      · omega
    have hmessage := exists_message_of_usesMap h he hfirst hfollows husesMap hmap hsized hknows
    exact (Receiver.decode_single_iff htarget hone hkey hroom counts).1.mpr
      (Receiver.readable_ne_nil hone hmessage)

/-- Of the packets of a map every one has a section with the id of its element, but with the resource
blocks and the user data of the first element of the map where the flow takes them from the map.  So
the section of an element has what the element says only where the first one says the same. -/
theorem buildMap_gives_first (hmap : PrbMap.create direction elements = .ok map)
    (hruns : (buildMap o map).run p = (.ok packets, built)) :
    List.Forall₂ (fun x packet => ∃ first, map.elements[0]? = some first ∧
        GivesFirst p.settings map o first x.1 x.2 packet)
      (map.elements.zipIdx.filter fun x => keeps p.settings o x.1) packets := by
  obtain ⟨-, husable⟩ := PrbMap.create_eq_ok hmap
  obtain ⟨-, hpackets⟩ := run_buildMap_eq_ok hruns
  refine forall₂_imp_of_mem hpackets fun x hx packet _ hpacket => ?_
  have hmem := List.fst_mem_of_mem_zipIdx (List.mem_of_mem_filter hx)
  have hpos := List.length_pos_of_mem hmem
  exact ⟨map.elements[0], List.getElem?_eq_getElem hpos,
    IsElementPacket.givesFirst hpacket (husable _ hmem) (List.getElem?_eq_getElem hpos)⟩

end Range

/-! ## Two sounding elements -/

namespace TwoSoundings

/-- A producer for paired spectrum. -/
def producer : Producer where
  settings :=
    { mu := .khz30, tagging := .untagged, framer := {}, frame := .fdd .khz30, mtu := 1500 }
  store := ⟨1, 16, 4, Vector.replicate _ (.blank 4)⟩

/-- A receiver without sections. -/
def store : SectionStore :=
  ⟨1, 16, 4, Vector.replicate _ (.blank 4)⟩

/-- An element on 24 blocks. -/
def first : PrbElement :=
  { startPrb := 40, numPrb := 24 }

/-- An element on 8 other blocks. -/
def second : PrbElement :=
  { startPrb := 100, numPrb := 8 }

/-- The map of the slot. -/
def map : PrbMap :=
  ⟨.ul, [first, second]⟩

/-- The order for the first slot and a sounding antenna. -/
def order : Order :=
  ⟨⟨.ul, 0, 9⟩, 0, .a, 0⟩

/-- What the receiver knows of the flow. -/
def context : FlowContext :=
  { mu := .khz30, carrier := 0, antenna := 9, map := some map, sounding := some ⟨8, 12⟩ }

/-- The message of the first element. -/
def firstMessage : Bytes :=
  [0x10, 0, 0, 0, 1, 1, 0, 0, 0, 0, 40, 24, 0xff, 0xfe, 0, 0]

/-- The message of the second element. -/
def secondMessage : Bytes :=
  [0x10, 0, 0, 0, 1, 1, 0, 0, 0, 0x10, 100, 8, 0xff, 0xfe, 0, 0]

/-- What the second message comes to for the receiver when it has decoded the first one. -/
def received : Except Error Message × ReceiveCounts × SectionStore :=
  let outcome := Receiver.decode context firstMessage {} store
  Receiver.decode context secondMessage outcome.2.1 outcome.2.2

lemma exists_packets : ∃ x y built, (buildMap order map).run producer = (.ok [x, y], built) ∧
    x.message = firstMessage ∧ y.message = secondMessage :=
  ⟨_, _, _, rfl, rfl, rfl⟩

/-- The second packet is decoded, and gives the blocks of the first element. -/
theorem buildMap_gives_first_second :
    ∃ x y built m s, (buildMap order map).run producer = (.ok [x, y], built) ∧
      (Receiver.decode context y.message {} store).1 = .ok m ∧ m.sections = [s] ∧
      s.info.id = 1 ∧ HasRange s.info first := by
  obtain ⟨x, y, built, hrun, -⟩ := exists_packets
  have hgives := buildMap_gives_first (show PrbMap.create .ul map.elements = .ok map from rfl) hrun
  have hkept : (map.elements.zipIdx.filter fun x => keeps producer.settings order x.1) =
      [(first, 0), (second, 1)] := rfl
  rw [hkept, List.forall₂_cons, List.forall₂_cons] at hgives
  obtain ⟨-, ⟨_, hfirst, hsecond⟩, -⟩ := hgives
  obtain rfl := Option.some.inj hfirst
  have hfollows : context.Follows producer.settings order := ⟨rfl, rfl, rfl, rfl⟩
  obtain ⟨m, hm⟩ := hsecond.decodes context hfollows rfl rfl nofun (.inl rfl) {} store rfl
    (by decide)
  obtain ⟨s, hs, hid, hrange, -⟩ := hsecond.gives context hfollows rfl rfl {} store m hm
  exact ⟨x, y, built, m, s, hrun, hm, hs, hid, hrange⟩

/-- When the two packets are decoded in their order, the section with the id of the second element
has the blocks of the first one. -/
theorem second_section_of_first :
    PrbMap.create .ul map.elements = .ok map ∧ context.isSounding = true ∧
      context.map = some map ∧ map.elements[1]? = some second ∧
      ∃ x y built m m' s, (buildMap order map).run producer = (.ok [x, y], built) ∧
        (Receiver.decodeEach [(context, x), (context, y)] ({}, store)).1 = [.ok m, .ok m'] ∧
        m'.sections = [s] ∧ s.info.id = 1 ∧
        s.info.startPrb = 40 ∧ second.startPrb = 100 ∧ s.info.numPrb = 24 ∧ second.numPrb = 8 := by
  refine ⟨rfl, rfl, rfl, rfl, ?_⟩
  obtain ⟨x, y, built, hrun, hx, hy⟩ := exists_packets
  obtain ⟨m, hm⟩ : ∃ m, (Receiver.decode context firstMessage {} store).1 = .ok m := ⟨_, rfl⟩
  obtain ⟨m', s, hm', hs, hid, hstart, hnum⟩ : ∃ m' s, received.1 = .ok m' ∧ m'.sections = [s] ∧
      s.info.id = 1 ∧ s.info.startPrb = 40 ∧ s.info.numPrb = 24 :=
    ⟨_, _, rfl, rfl, rfl, rfl, rfl⟩
  refine ⟨x, y, built, m, m', s, hrun, ?_, hs, hid, hstart, rfl, hnum, rfl⟩
  rw [← hm, ← hm', received, ← hx, ← hy]
  rfl

end TwoSoundings

end Link

end OpenFronthaul
