import OpenFronthaul.Proofs.Receiver.Elements

/-!
# Lookups at both ends of a link

User data is handled by a lookup: the first section of a bucket that covers a resource block on a
symbol.  At the producer this is the first element of the map that the slot leaves the symbol and
that has the block.  At the receiver an element of more than 255 blocks has all blocks of the
carrier, because the wire has no count for it.  So the two ends agree, except where such an element
comes before every element that covers both (`Link.lookups_agree_iff`).
-/

namespace OpenFronthaul

open SectionStore

/-! ## First places in a list -/

section First

variable {α β : Type} {p q : α → Bool} {xs : List α} {g : α → β}

/-- A search for more finds the same exactly when what it finds is what was searched for.  What is
looked at of the entries tells them apart. -/
lemma map_find?_eq_iff (hpq : ∀ x ∈ xs, p x = true → q x = true)
    (hg : ∀ x ∈ xs, ∀ y ∈ xs, g x = g y → x = y) :
    (xs.find? p).map g = (xs.find? q).map g ↔ ∀ x ∈ xs.find? q, p x = true := by
  constructor
  · intro heq x hx
    rw [Option.mem_def.mp hx, Option.map_some, Option.map_eq_some_iff] at heq
    obtain ⟨y, hy, hyx⟩ := heq
    have hsame := hg y (List.mem_of_find?_eq_some hy) x (List.mem_of_find?_eq_some hx) hyx
    rw [← hsame]
    exact List.find?_some hy
  · intro hfirst
    rcases hfind : xs.find? q with _ | x
    · -- nothing was found by the wider search, so nothing is by the narrower one
      rw [List.find?_eq_none] at hfind
      rw [List.find?_eq_none.mpr fun x hx hp => hfind x hx (hpq x hx hp)]
    · have hp := hfirst x hfind
      obtain ⟨-, i, hi, hget, hbefore⟩ := List.find?_eq_some_iff_getElem.mp hfind
      rw [List.find?_eq_some_iff_getElem.mpr ⟨hp, i, hi, hget, fun j hj => ?_⟩]
      have hnot := hbefore j hj
      rw [Bool.not_eq_true'] at hnot ⊢
      exact Bool.eq_false_of_not_eq_true fun hpj =>
        absurd (hpq _ (List.getElem_mem _) hpj) (by rw [hnot]; nofun)

/-- What a wider search finds was searched for unless an entry that was not comes before all that
were. -/
lemma forall_find?_iff (hpq : ∀ x ∈ xs, p x = true → q x = true) :
    (∀ x ∈ xs.find? q, p x = true) ↔
      ¬∃ (i : ℕ) (x : α), xs[i]? = some x ∧ q x = true ∧ p x = false ∧
        ∀ j < i, ∀ y, xs[j]? = some y → p y = false := by
  constructor
  · rintro hfirst ⟨i, x, hx, hq, hp, hbefore⟩
    obtain ⟨hi, rfl⟩ := List.getElem?_eq_some_iff.mp hx
    rcases hfind : xs.find? q with _ | y
    · exact List.find?_eq_none.mp hfind _ (List.getElem_mem hi) hq
    · have hpy := hfirst y hfind
      obtain ⟨-, k, hk, rfl, hskipped⟩ := List.find?_eq_some_iff_getElem.mp hfind
      -- what was found stands neither before the given entry nor in its place nor behind it
      rcases lt_trichotomy k i with hlt | rfl | hgt
      · rw [hbefore k hlt _ (List.getElem?_eq_getElem hk)] at hpy
        cases hpy
      · rw [hp] at hpy
        cases hpy
      · have hnot := hskipped i hgt
        rw [hq] at hnot
        cases hnot
  · intro hnone x hx
    by_contra hp
    obtain ⟨hq, k, hk, rfl, hskipped⟩ := List.find?_eq_some_iff_getElem.mp (Option.mem_def.mp hx)
    refine hnone ⟨k, xs[k], List.getElem?_eq_getElem hk, hq, Bool.eq_false_of_not_eq_true hp, ?_⟩
    intro j hj y hy
    obtain ⟨hlt, rfl⟩ := List.getElem?_eq_some_iff.mp hy
    by_contra hpj
    have hnot := hskipped j hj
    rw [hpq _ (List.getElem_mem hlt) (Bool.eq_true_of_not_eq_false hpj)] at hnot
    cases hnot

lemma getElem?_zipIdx_eq_some {i : ℕ} {x : α × ℕ} :
    xs.zipIdx[i]? = some x ↔ ∃ a, xs[i]? = some a ∧ (a, i) = x := by
  rw [List.getElem?_zipIdx, Option.map_eq_some_iff, Nat.zero_add]

end First

/-- An element has a resource block. -/
def PrbElement.Holds (e : PrbElement) (prb : ℕ) : Prop :=
  e.startPrb.toNat ≤ prb ∧ prb < e.startPrb.toNat + e.numPrb.toNat

/-- A section lies on a symbol. -/
def Section.On (s : Section) (symbol : ℕ) : Prop :=
  s.startSymbol.toNat ≤ symbol ∧ symbol < s.startSymbol.toNat + s.numSymbols.toNat

namespace Link

open Producer

variable {settings : ProducerSettings} {o : Order} {symbol prb : ℕ}

/-! ## One element -/

/-- The section that is recorded for an element has its blocks, and lies on the symbols that the
slot leaves it. -/
lemma on_of_recordFor? {x : PrbElement × ℕ} {info : Section} (he : x.1.Usable)
    (h : recordFor? settings o x = some info) :
    info.startPrb = x.1.startPrb ∧ info.numPrb = x.1.numPrb ∧ info.allPrbs = false ∧
      info.id = UInt16.ofNat x.2 ∧ ∀ symbol, info.On symbol ↔
        Leaves settings.frame o.flow.direction o.slot x.1 symbol := by
  obtain ⟨start, count, hsymbols, rfl⟩ := recordFor?_eq_some.mp h
  obtain ⟨-, hrange⟩ := elementSymbols_eq_some he hsymbols
  have hle : start + count ≤ 14 := elementSymbols_le he hsymbols
  have hstart : (UInt8.ofNat start).toNat = start := by
    rw [UInt8.toNat_ofNat', Nat.mod_eq_of_lt (by omega)]
  have hcount : (UInt8.ofNat count).toNat = count := by
    rw [UInt8.toNat_ofNat', Nat.mod_eq_of_lt (by omega)]
  refine ⟨rfl, rfl, rfl, rfl, fun symbol => ?_⟩
  rw [← hrange, Section.On]
  simp only [elementSection, hstart, hcount]

/-- An element that the slot leaves a symbol has a section. -/
lemma exists_recordFor? {x : PrbElement × ℕ} (he : x.1.Usable)
    (h : Leaves settings.frame o.flow.direction o.slot x.1 symbol) :
    ∃ info, recordFor? settings o x = some info := by
  rw [← Option.isSome_iff_exists, isSome_recordFor?, keeps_iff he]
  exact ⟨symbol, h⟩

/-- A question about the symbols of a section and about something else is one about the symbols that
the slot leaves the element. -/
lemma any_recordFor?_iff {x : PrbElement × ℕ} {question : Section → Bool} {other : Prop}
    (he : x.1.Usable) (h : ∀ info, recordFor? settings o x = some info →
      (question info = true ↔ info.On symbol ∧ other)) :
    (recordFor? settings o x).any question = true ↔
      Leaves settings.frame o.flow.direction o.slot x.1 symbol ∧ other := by
  rw [Option.any_eq_true]
  constructor
  · rintro ⟨info, hinfo, hquestion⟩
    obtain ⟨-, -, -, -, hon⟩ := on_of_recordFor? he hinfo
    rw [← hon]
    exact (h info hinfo).mp hquestion
  · rintro ⟨hleaves, hother⟩
    obtain ⟨info, hinfo⟩ := exists_recordFor? he hleaves
    obtain ⟨-, -, -, -, hon⟩ := on_of_recordFor? he hinfo
    exact ⟨info, hinfo, (h info hinfo).mpr ⟨(hon symbol).mpr hleaves, hother⟩⟩

/-- What the section of an element covers at the producer. -/
lemma any_covers_iff {x : PrbElement × ℕ} (he : x.1.Usable) :
    (recordFor? settings o x).any (·.covers symbol prb) = true ↔
      Leaves settings.frame o.flow.direction o.slot x.1 symbol ∧ x.1.Holds prb := by
  refine any_recordFor?_iff he fun info hinfo => ?_
  obtain ⟨hprb, hcount, hall, -, -⟩ := on_of_recordFor? he hinfo
  simp only [Section.covers, hprb, hcount, hall, Bool.false_or, Bool.and_eq_true, decide_eq_true_eq]
  rfl

/-- What it covers at the receiver, where a count that the wire cannot carry stands for all blocks. -/
lemma any_delivered_iff {x : PrbElement × ℕ} (he : x.1.Usable) (carrierPrbs : Option UInt16) :
    (recordFor? settings o x).any (fun info => (info.delivered carrierPrbs).covers symbol prb) =
        true ↔
      Leaves settings.frame o.flow.direction o.slot x.1 symbol ∧
        (255 < x.1.numPrb.toNat ∨ x.1.Holds prb) := by
  refine any_recordFor?_iff he fun info hinfo => ?_
  obtain ⟨hprb, hcount, -, -, -⟩ := on_of_recordFor? he hinfo
  by_cases hlarge : 255 < x.1.numPrb.toNat
  · simp only [Section.covers, Section.delivered, hcount, hlarge, decide_true, Bool.true_or,
      Bool.and_true, Bool.and_eq_true, decide_eq_true_eq, true_or, and_true]
    rfl
  · simp only [Section.covers, Section.delivered, hprb, hcount, hlarge, decide_false, if_false,
      Bool.false_or, Bool.and_eq_true, decide_eq_true_eq, false_or]
    rfl

/-! ## Both buckets -/

/-- A lookup among the sections of elements finds the id of the first element that it is about. -/
lemma map_id_find? (settings : ProducerSettings) (o : Order) {f : Section → Section}
    (hf : ∀ info, (f info).id = info.id) (xs : List (PrbElement × ℕ)) (question : Section → Bool) :
    (((xs.filterMap (recordFor? settings o)).map f).find? question).map (·.id) =
      (xs.find? fun x => (recordFor? settings o x).any fun info => question (f info)).map
        fun x => UInt16.ofNat x.2 := by
  induction xs with
  | nil => rfl
  | cons x xs ih =>
    rw [filterMap_recordFor?_cons, List.map_append, List.find?_append, List.find?_cons]
    rcases hinfo : recordFor? settings o x with _ | info
    · exact ih
    rw [Option.toList_some, List.map_singleton, List.find?_singleton, Option.any_some]
    rcases question (f info) with _ | _
    · exact ih
    · exact congrArg some ((hf info).trans (id_of_recordFor? hinfo))

/-- What a receiver knows of a packet for a lookup: the flow, perhaps the map, and perhaps the
resource blocks of the carrier. -/
structure Listens (settings : ProducerSettings) (map : PrbMap) (o : Order)
    (carrierPrbs : Option UInt16) (c : FlowContext) : Prop where
  follows : c.Follows settings o
  usesMap_eq : c.usesMap = false
  map_eq : ∀ known ∈ c.map, known = map
  carrierPrbs_eq : c.carrierPrbs = carrierPrbs

section Lookups

variable {map : PrbMap} {p built : Producer} {sent : List (FlowContext × Packet)}
  {store : SectionStore} {carrierPrbs : Option UInt16} {direction : Direction}
  {elements : List PrbElement}

/-- Only elements that are kept have a section. -/
lemma filterMap_filter_keeps (xs : List (PrbElement × ℕ)) :
    (xs.filter fun x => keeps settings o x.1).filterMap (recordFor? settings o) =
      xs.filterMap (recordFor? settings o) := by
  rw [List.filterMap_filter]
  refine List.filterMap_congr fun x _ => ?_
  rw [← isSome_recordFor?]
  rcases recordFor? settings o x with _ | info
  · rfl
  · rfl

/-- What both ends have recorded of a map, when every packet was decoded. -/
lemma entries_of_listens (husable : ∀ e ∈ map.elements, e.Usable)
    (hsent : p.store.entries o.key = []) (hreceived : store.entries o.slotKey = [])
    (hkey : store.hasKey o.slotKey = true) (hcapacity : map.size ≤ store.capacity)
    (hruns : (buildMap o map).run p = (.ok (sent.map Prod.snd), built))
    (hlistens : ∀ y ∈ sent, Listens p.settings map o carrierPrbs y.1) (counts : ReceiveCounts) :
    built.store.entries o.key = map.elements.zipIdx.filterMap (recordFor? p.settings o) ∧
      ((∀ result ∈ (Receiver.decodeEach sent (counts, store)).1, ∃ m, result = .ok m) ↔
        ∀ y ∈ sent, Receiver.readable y.1 y.2.message ≠ []) ∧
      ((∀ y ∈ sent, Receiver.readable y.1 y.2.message ≠ []) →
        (Receiver.decodeEach sent (counts, store)).2.2.entries o.slotKey =
          (map.elements.zipIdx.filterMap (recordFor? p.settings o)).map
            (·.delivered carrierPrbs)) := by
  obtain ⟨htraces, -⟩ := run_buildMap_traces hruns
  obtain ⟨-, hpackets⟩ := run_buildMap_eq_ok hruns
  rw [List.forall₂_map_right_iff] at hpackets
  have hle : (map.elements.zipIdx.filter fun x => keeps p.settings o x.1).length ≤ map.size := by
    rw [PrbMap.size, ← List.length_zipIdx (l := map.elements)]
    exact List.length_filter_le _ _
  have hjoins := Receiver.joins_of_elements hpackets (fun y hy => (hlistens y hy).follows)
    (fun y hy => (hlistens y hy).map_eq) hkey (hle.trans hcapacity) hle
    fun y _ => Receiver.base_eq_nil map (.inl hreceived)
  obtain ⟨hiff, hupdates⟩ := Receiver.decodeEach_fills hjoins (fun _ => hreceived) counts
  refine ⟨?_, hiff, fun hread => ?_⟩
  · rw [htraces.store.entries_self, hsent, List.nil_append]
  · rw [(hupdates hread).entries_self, List.nil_append, ← filterMap_filter_keeps]
    refine Receiver.readableEach_of_elements (forall₂_imp_of_mem hpackets ?_) hread
    intro x hx y hy hpacket
    have hlisten := hlistens y hy
    have hmem := List.fst_mem_of_mem_zipIdx (List.mem_of_mem_filter hx)
    exact ⟨hpacket, husable _ hmem, hlisten.follows, hlisten.usesMap_eq,
      fun info _ => by rw [hlisten.carrierPrbs_eq]⟩

/-- The place of an element in its map can be told from its id. -/
lemma eq_of_id_eq (hmap : PrbMap.create direction elements = .ok map) :
    ∀ x ∈ map.elements.zipIdx, ∀ y ∈ map.elements.zipIdx,
      UInt16.ofNat x.2 = UInt16.ofNat y.2 → x = y := by
  rintro ⟨e, i⟩ hx ⟨e', j⟩ hy hid
  have hi : i < 275 := (PrbMap.usable_of_mem_zipIdx hmap hx).2
  have hj : j < 275 := (PrbMap.usable_of_mem_zipIdx hmap hy).2
  have hnat := congrArg UInt16.toNat hid
  rw [UInt16.toNat_ofNat', UInt16.toNat_ofNat', Nat.mod_eq_of_lt (by omega),
    Nat.mod_eq_of_lt (by omega)] at hnat
  obtain rfl : i = j := hnat
  rw [(List.mem_zipIdx hx).2.2, (List.mem_zipIdx hy).2.2]

/-- The ids that are found among the sections of a map at both ends. -/
lemma find?_agree_iff (hmap : PrbMap.create direction elements = .ok map) :
    ((map.elements.zipIdx.filterMap (recordFor? settings o)).find? (·.covers symbol prb)).map
          (·.id) =
        (((map.elements.zipIdx.filterMap (recordFor? settings o)).map
          (·.delivered carrierPrbs)).find? (·.covers symbol prb)).map (·.id) ↔
      ¬∃ (i : ℕ) (e : PrbElement), map.elements[i]? = some e ∧ 255 < e.numPrb.toNat ∧
        Leaves settings.frame o.flow.direction o.slot e symbol ∧ ¬e.Holds prb ∧
        ∀ j < i, ∀ e', map.elements[j]? = some e' →
          ¬(Leaves settings.frame o.flow.direction o.slot e' symbol ∧ e'.Holds prb) := by
  obtain ⟨-, husable⟩ := PrbMap.create_eq_ok hmap
  have hplain := map_id_find? settings o (f := fun info => info) (fun _ => rfl)
    map.elements.zipIdx (·.covers symbol prb)
  have hother := map_id_find? settings o (f := (·.delivered carrierPrbs)) (fun _ => rfl)
    map.elements.zipIdx (·.covers symbol prb)
  have hwider : ∀ x ∈ map.elements.zipIdx,
      (recordFor? settings o x).any (·.covers symbol prb) = true →
      (recordFor? settings o x).any (fun info => (info.delivered carrierPrbs).covers symbol prb) =
        true := by
    intro x hx
    have he := husable _ (List.fst_mem_of_mem_zipIdx hx)
    rw [any_covers_iff he, any_delivered_iff he]
    exact And.imp_right .inr
  rw [List.map_id'] at hplain
  rw [hplain, hother, map_find?_eq_iff hwider (eq_of_id_eq hmap), forall_find?_iff hwider]
  have hcovers : ∀ i e, map.elements[i]? = some e →
      ((recordFor? settings o (e, i)).any (·.covers symbol prb) = true ↔
        Leaves settings.frame o.flow.direction o.slot e symbol ∧ e.Holds prb) :=
    fun i e he => any_covers_iff (husable e (List.mem_of_getElem? he))
  -- both sides now name the first element that only the receiver finds
  refine not_congr (exists_congr fun i => ?_)
  constructor
  · rintro ⟨x, hx, hq, hp, hbefore⟩
    obtain ⟨e, he, rfl⟩ := getElem?_zipIdx_eq_some.mp hx
    rw [any_delivered_iff (husable e (List.mem_of_getElem? he))] at hq
    rw [← Bool.not_eq_true, hcovers i e he, not_and] at hp
    have houtside := hp hq.1
    refine ⟨e, he, hq.2.resolve_right houtside, hq.1, houtside, fun j hj e' he' => ?_⟩
    rw [← hcovers j e' he', Bool.not_eq_true]
    exact hbefore j hj (e', j) (getElem?_zipIdx_eq_some.mpr ⟨e', he', rfl⟩)
  · rintro ⟨e, he, hlarge, hleaves, houtside, hbefore⟩
    refine ⟨(e, i), getElem?_zipIdx_eq_some.mpr ⟨e, he, rfl⟩, ?_, ?_, fun j hj y hy => ?_⟩
    · exact (any_delivered_iff (husable e (List.mem_of_getElem? he)) carrierPrbs).mpr
        ⟨hleaves, .inl hlarge⟩
    · rw [← Bool.not_eq_true, hcovers i e he]
      exact fun h => houtside h.2
    · obtain ⟨e', he', rfl⟩ := getElem?_zipIdx_eq_some.mp hy
      rw [← Bool.not_eq_true, hcovers j e' he']
      exact hbefore j hj e' he'

/-- After the packets of a map went over a link with empty buckets, the two ends find sections with
the same id, or none, at a resource block of a symbol.  The exception are elements of more than 255
blocks that the slot leaves the symbol and that do not have the block, where they come before every
element that has both.  Packets are decoded whenever the weights of the elements have the sizes that
are said of them (`WellSized`) and the receiver knows how many weights the packets carry. -/
theorem lookups_agree_iff (hmap : PrbMap.create direction elements = .ok map)
    (hsent : p.store.entries o.key = []) (hreceived : store.entries o.slotKey = [])
    (hkey : store.hasKey o.slotKey = true) (hcapacity : map.size ≤ store.capacity)
    (hruns : (buildMap o map).run p = (.ok (sent.map Prod.snd), built))
    (hlistens : ∀ y ∈ sent, Listens p.settings map o carrierPrbs y.1) (counts : ReceiveCounts) :
    ((∀ e ∈ map.elements, e.weightUpdate = true → e.weights.WellSized) →
        List.Forall₂ (fun x y => y.1.Knows o x.1)
          (map.elements.zipIdx.filter fun x => keeps p.settings o x.1) sent →
        ∀ result ∈ (Receiver.decodeEach sent (counts, store)).1, ∃ m, result = .ok m) ∧
      ((∀ result ∈ (Receiver.decodeEach sent (counts, store)).1, ∃ m, result = .ok m) →
        ∀ symbol < symbolsPerSlot, ∀ prb,
          (built.store.lookup? o.key symbol prb).map (·.id) =
              ((Receiver.decodeEach sent (counts, store)).2.2.lookup? o.slotKey symbol prb).map
                (·.id) ↔
            ¬∃ (i : ℕ) (e : PrbElement), map.elements[i]? = some e ∧ 255 < e.numPrb.toNat ∧
              Leaves p.settings.frame o.flow.direction o.slot e symbol ∧ ¬e.Holds prb ∧
              ∀ j < i, ∀ e', map.elements[j]? = some e' →
                ¬(Leaves p.settings.frame o.flow.direction o.slot e' symbol ∧ e'.Holds prb)) := by
  obtain ⟨-, husable⟩ := PrbMap.create_eq_ok hmap
  obtain ⟨hbuilt, hiff, hentries⟩ := entries_of_listens husable hsent hreceived hkey hcapacity hruns
    hlistens counts
  refine ⟨fun hsized hknows => hiff.mpr fun y hy => ?_, fun hok symbol hsymbol prb => ?_⟩
  · obtain ⟨-, hpackets⟩ := run_buildMap_eq_ok hruns
    rw [List.forall₂_map_right_iff] at hpackets
    obtain ⟨x, hx, -, -, hpacket, hknow⟩ :=
      exists_of_mem_right (forall₂_mem_and hpackets hknows) hy
    have hmem := List.fst_mem_of_mem_zipIdx (List.mem_of_mem_filter hx)
    exact Receiver.readable_ne_nil_of_knows (husable _ hmem) (hsized _ hmem) hknow
      (hlistens y hy).follows (hlistens y hy).usesMap_eq hpacket
  · rw [lookup?, lookup?, if_pos hsymbol, if_pos hsymbol, hbuilt, hentries (hiff.mp hok)]
    exact find?_agree_iff hmap

end Lookups

/-! ## An element that the wire cannot count -/

namespace LargeElement

/-- A producer for paired spectrum. -/
def producer : Producer where
  settings :=
    { mu := .khz30, tagging := .untagged, framer := {}, frame := .fdd .khz30, mtu := 1500 }
  store := ⟨1, 1, 4, Vector.replicate _ (.blank 4)⟩

/-- A receiver without sections. -/
def store : SectionStore :=
  ⟨1, 1, 4, Vector.replicate _ (.blank 4)⟩

/-- An element on 260 of the 273 blocks of a carrier. -/
def map : PrbMap where
  direction := .dl
  elements := [{ numPrb := 260 }]

/-- The order for the first slot. -/
def order : Order :=
  ⟨⟨.dl, 0, 0⟩, 0, .a, 0⟩

/-- What the receiver knows of the flow. -/
def context : FlowContext :=
  { mu := .khz30, carrier := 0, antenna := 0, carrierPrbs := some 273 }

/-- The message of the element. -/
def bytes : Bytes :=
  [0x90, 0, 0, 0, 1, 1, 0, 0, 0, 0, 0, 0, 0xff, 0xfe, 0, 0]

/-- What the receiver has when it has decoded the message. -/
def received : Except Error Message × ReceiveCounts × SectionStore :=
  Receiver.decode context bytes {} store

lemma exists_packet : ∃ packet built, (buildMap order map).run producer = (.ok [packet], built) ∧
    packet.message = bytes ∧ built.store.lookup? order.key 0 265 = none :=
  ⟨_, _, rfl, rfl, by decide +kernel⟩

lemma exists_received : ∃ m, received.1 = .ok m :=
  ⟨_, rfl⟩

/-- At a block of the element both ends find it. -/
theorem lookups_agree_iff_inside :
    ∃ packet built, (buildMap order map).run producer = (.ok [packet], built) ∧
      (built.store.lookup? order.key 0 100).map (·.id) =
        ((Receiver.decodeEach [(context, packet)] ({}, store)).2.2.lookup? order.slotKey 0 100).map
          (·.id) := by
  obtain ⟨packet, built, hrun, hmessage, -⟩ := exists_packet
  have hempty : ∀ key, store.entries key = [] :=
    SectionStore.entries_create (show SectionStore.create 1 1 4 = .ok store from rfl)
  have hlistens : ∀ y ∈ [(context, packet)],
      Listens producer.settings map order (some 273) y.1 := by
    intro y hy
    rw [List.mem_singleton.mp hy]
    exact ⟨⟨rfl, rfl, rfl, rfl⟩, rfl, nofun, rfl⟩
  have hok : ∀ result ∈ (Receiver.decodeEach [(context, packet)] ({}, store)).1,
      ∃ m, result = .ok m := by
    intro result hresult
    obtain rfl := List.mem_singleton.mp hresult
    dsimp only
    rw [hmessage]
    exact exists_received
  obtain ⟨-, hagree⟩ := lookups_agree_iff (show PrbMap.create .dl map.elements = .ok map from rfl)
    (hempty _) (hempty _) rfl (by decide) hrun hlistens {}
  refine ⟨packet, built, hrun, (hagree hok 0 (by decide) 100).mpr ?_⟩
  rintro ⟨i, e, he, -, -, houtside, -⟩
  obtain rfl := List.mem_singleton.mp (List.mem_of_getElem? he)
  exact houtside ⟨by decide, by decide⟩

/-- Behind the blocks of the element the producer finds nothing, but the receiver the element. -/
theorem lookups_differ_outside :
    PrbMap.create .dl map.elements = .ok map ∧ producer.settings.frame.duplex = .fdd ∧
      (∀ e ∈ map.elements, e.startPrb.toNat + e.numPrb.toNat ≤ 273) ∧
      ∃ packet built m, (buildMap order map).run producer = (.ok [packet], built) ∧
        (Receiver.decode context packet.message {} store).1 = .ok m ∧
        built.store.lookup? order.key 0 265 = none ∧
        ((Receiver.decode context packet.message {} store).2.2.lookup? order.slotKey 0 265).map
          (·.id) = some 0 := by
  refine ⟨rfl, rfl, by decide, ?_⟩
  obtain ⟨packet, built, hrun, hmessage, hlookup⟩ := exists_packet
  obtain ⟨m, hm⟩ := exists_received
  have hreceived : Receiver.decode context packet.message {} store = received := by
    rw [hmessage]
    rfl
  refine ⟨packet, built, m, hrun, ?_, hlookup, ?_⟩
  · rw [hreceived]
    exact hm
  · rw [hreceived]
    decide +kernel

end LargeElement

end Link

end OpenFronthaul
