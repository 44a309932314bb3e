import OpenFronthaul.Proofs.Emulation.Start
import OpenFronthaul.Proofs.Producer.Success
import OpenFronthaul.Proofs.Receiver.Elements

/-!
# Parts that are built without failures

On paired spectrum, and when every element can be built, an event has the sections of its part added
to the buckets of all flows of its direction, and the first part of a slot empties them before
(`Plan.refill`).  The only thing that can still go wrong is that a bucket has no room
(`Plan.build_serves`).
-/

namespace OpenFronthaul

open SectionStore (Updates)

/-- The flow of a bucket. -/
def SectionKey.flow (key : SectionKey) : Flow :=
  ⟨key.direction, key.carrier, key.antenna⟩

namespace Plan

variable {plan : Plan} {d : Direction} {event : SymbolEvent} {flow : Flow} {p : Producer}

/-- What a producer that follows a plan goes by. -/
def settings (plan : Plan) : ProducerSettings where
  mu := plan.config.mu
  tagging := plan.config.tagging
  framer := plan.framer
  frame := plan.frame
  mtu := plan.config.mtu

/-- A plan for paired spectrum whose elements can all be built. -/
structure Buildable (plan : Plan) : Prop where
  frame_eq : plan.frame = .fdd plan.config.mu
  builds : ∀ d, ∀ x ∈ (plan.map d).elements.zipIdx,
    Producer.Builds plan.settings d plan.config.category x

/-- A producer that follows a plan and has the buckets of its flows. -/
structure Follows (plan : Plan) (p : Producer) : Prop where
  settings_eq : p.settings = plan.settings
  pool : p.memory.pool = none
  hasKey : ∀ d, ∀ flow ∈ plan.flows d, ∀ context : UInt8, context.toNat < rotationContexts →
    p.store.hasKey ⟨d, flow.carrier, flow.antenna, context⟩ = true

/-- The elements of a part of the map of a direction, with their places. -/
def partElements (plan : Plan) (d : Direction) (event : SymbolEvent) : List (PrbElement × ℕ) :=
  ((plan.map d).elements.zipIdx.take ((plan.map d).partRange event.part event.parts).2).drop
    ((plan.map d).partRange event.part event.parts).1

/-- A part whose range is empty has no elements. -/
lemma partElements_eq_nil (h : ¬((plan.map d).partRange event.part event.parts).1 <
    ((plan.map d).partRange event.part event.parts).2) : plan.partElements d event = [] := by
  rw [partElements, List.drop_eq_nil_iff, List.length_take]
  omega

/-- The sections of a part of the map of a direction. -/
def partSections (plan : Plan) (d : Direction) (event : SymbolEvent) : List Section :=
  (plan.partElements d event).map (Producer.elementRecord plan.config.category)

/-- What is left of a bucket when an event comes: the first part of a slot empties it. -/
def kept (event : SymbolEvent) (bucket : List Section) : List Section :=
  if event.part = 0 then [] else bucket

/-- A bucket after an event. -/
def refill (plan : Plan) (d : Direction) (bucket : List Section) (event : SymbolEvent) :
    List Section :=
  kept event bucket ++ plan.partSections d event

/-! ## One flow -/

/-- What a producer comes to that served one flow for an event without a failure. -/
structure Serves (plan : Plan) (event : SymbolEvent) (flow : Flow) (bucket : List Section)
    (p after : Producer) (sent : List Bytes) : Prop where
  settings_eq : after.settings = p.settings
  pool : after.memory.pool = none
  store : Updates p.store (plan.order event flow).key
    (bucket ++ plan.partSections flow.direction event) after.store
  packets : after.counts.packets =
    p.counts.packets + (plan.partElements flow.direction event).length
  sections : after.counts.sections =
    p.counts.sections + (plan.partElements flow.direction event).length
  skipped : after.counts.skipped = p.counts.skipped
  sent : List.Forall₂ (fun x wire => ∃ packet sequence, wire = Packet.wire packet ∧
    Producer.IsFramed plan.settings (plan.order event flow) sequence x.1 x.2 packet)
    (plan.partElements flow.direction event) sent

lemma exists_run_sendRange (hplan : plan.Buildable) (hsettings : p.settings = plan.settings)
    (hroom : Producer.HasRoom p (plan.order event flow)
      (plan.partElements flow.direction event).length) :
    ∃ sent after,
      (plan.sendRange event ((plan.map flow.direction).partRange event.part event.parts)
        flow).run p = (.ok sent, after) ∧
      plan.Serves event flow (p.store.entries (plan.order event flow).key) p after sent := by
  have hfdd : p.settings.frame.duplex = .fdd := by
    rw [hsettings]
    show plan.frame.duplex = .fdd
    rw [hplan.frame_eq]
    rfl
  unfold sendRange
  split_ifs with hrange
  · obtain ⟨packets, after, hrun, hcompletes⟩ := Producer.exists_run_buildRange hfdd (fun x hx => by
      rw [hsettings]
      exact hplan.builds _ x hx) hroom
    refine ⟨packets.map Packet.wire, { after with memory := after.memory.dropAll packets }, ?_, ?_⟩
    · rw [run_bind, hrun]
      rfl
    · have htraces := hcompletes.traces
      refine ⟨htraces.settings, Memory.pool_dropAll hcompletes.pool packets, htraces.store, ?_, ?_,
        ?_, ?_⟩
      · exact htraces.packets.trans (by rw [List.length_map]; rfl)
      · exact htraces.sections.trans (by rw [List.length_map]; rfl)
      · have hskipped := htraces.skipped
        rw [List.length_map] at hskipped
        exact Nat.add_right_cancel hskipped
      · rw [List.forall₂_map_right_iff]
        refine hcompletes.packets.imp ?_
        rintro x packet ⟨sequence, hframed⟩
        rw [hsettings] at hframed
        exact ⟨packet, sequence, rfl, hframed⟩
  · have hnone := partElements_eq_nil hrange
    refine ⟨[], p, rfl, rfl, hroom.pool, ?_, ?_, ?_, rfl, ?_⟩
    · rw [partSections, hnone, List.map_nil, List.append_nil]
      exact .refl _ _
    · rw [hnone]
      rfl
    · rw [hnone]
      rfl
    · rw [hnone]
      exact .nil

/-- A flow is served when its bucket has room for what it gets. -/
lemma exists_run_flowStep (hplan : plan.Buildable) (hp : plan.Follows p)
    (hkey : p.store.hasKey (plan.order event flow).key = true)
    (hroom : (plan.refill flow.direction (p.store.entries (plan.order event flow).key)
      event).length ≤ p.store.capacity) :
    ∃ sent after,
      (plan.flowStep event ((plan.map flow.direction).partRange event.part event.parts)
        flow).run p = (.ok sent, after) ∧
      plan.Serves event flow (kept event (p.store.entries (plan.order event flow).key)) p after
        sent := by
  rw [refill, kept, List.length_append, partSections, List.length_map] at hroom
  unfold flowStep kept
  by_cases hpart : event.part = 0
  · simp only [if_pos hpart] at hroom ⊢
    obtain ⟨store, hreset, hupdates⟩ := (SectionStore.Step.writes_reset hkey).after_eq
    have hempties : (Producer.emptyBucket (plan.order event flow).key).run p =
        (.ok (), { p with store }) := by
      rw [Producer.emptyBucket, run_bind, run_get]
      dsimp only
      rw [SectionStore.reset, hreset]
      rfl
    have hempty : Producer.HasRoom { p with store } (plan.order event flow)
        (plan.partElements flow.direction event).length := by
      refine ⟨hp.pool, (hupdates.hasKey_eq _).trans hkey, ?_⟩
      dsimp only
      rw [hupdates.entries_self, hupdates.capacity_eq]
      exact hroom
    have hsettings : ({ p with store } : Producer).settings = plan.settings := hp.settings_eq
    obtain ⟨sent, after, hrun, hserves⟩ := exists_run_sendRange hplan hsettings hempty
    dsimp only at hserves
    rw [hupdates.entries_self] at hserves
    refine ⟨sent, after, ?_, { hserves with store := hupdates.trans hserves.store }⟩
    rw [run_bind, hempties]
    exact hrun
  · simp only [if_neg hpart] at hroom ⊢
    exact exists_run_sendRange hplan hp.settings_eq ⟨hp.pool, hkey, hroom⟩

/-! ## All flows of a direction -/

lemma key_order_eq_iff {key : SectionKey} :
    (plan.order event flow).key = key ↔ key.flow = flow ∧ key.context = event.context := by
  obtain ⟨direction, carrier, antenna, context⟩ := key
  constructor
  · rintro ⟨⟩
    exact ⟨rfl, rfl⟩
  · rintro ⟨rfl, rfl⟩
    rfl

/-- What goes over the wire for a direction. -/
def IsSent (plan : Plan) (d : Direction) (wire : Bytes) : Prop :=
  ∃ event, ∃ flow ∈ plan.flows d, ∃ x ∈ (plan.map d).elements.zipIdx, ∃ packet sequence,
    wire = Packet.wire packet ∧
      Producer.IsFramed plan.settings (plan.order event flow) sequence x.1 x.2 packet

/-- What a producer comes to that served some flows for an event without a failure. -/
structure ServesAll (plan : Plan) (d : Direction) (event : SymbolEvent) (flows : List Flow)
    (p after : Producer) (sent : List Bytes) : Prop where
  follows : plan.Follows after
  capacity_eq : after.store.capacity = p.store.capacity
  entries_eq : ∀ key, after.store.entries key =
    if key.flow ∈ flows ∧ key.context = event.context then
      plan.refill d (p.store.entries key) event
    else p.store.entries key
  packets : after.counts.packets = p.counts.packets + sent.length
  sections : after.counts.sections = p.counts.sections + sent.length
  skipped : after.counts.skipped = p.counts.skipped
  length_sent : sent.length = flows.length * (plan.partElements d event).length
  isSent : ∀ wire ∈ sent, plan.IsSent d wire

lemma Serves.follows {bucket : List Section} {after : Producer} {sent : List Bytes}
    (h : plan.Serves event flow bucket p after sent) (hp : plan.Follows p) : plan.Follows after :=
  ⟨h.settings_eq.trans hp.settings_eq, h.pool, fun d flow hflow context hcontext =>
    (h.store.hasKey_eq _).trans (hp.hasKey d flow hflow context hcontext)⟩

/-- A flow that is served before others has its own bucket refilled. -/
lemma ServesAll.cons {flows : List Flow} {next after : Producer} {sent others : List Bytes}
    (hflow : flow ∈ plan.flows flow.direction) (hnew : flow ∉ flows)
    (hserves : plan.Serves event flow (kept event (p.store.entries (plan.order event flow).key)) p
      next sent)
    (hrest : plan.ServesAll flow.direction event flows next after others) :
    plan.ServesAll flow.direction event (flow :: flows) p after (sent ++ others) := by
  have hlength := hserves.sent.length_eq
  refine ⟨hrest.follows, hrest.capacity_eq.trans hserves.store.capacity_eq, fun key => ?_, ?_, ?_,
    hrest.skipped.trans hserves.skipped, ?_, ?_⟩
  · rw [hrest.entries_eq, hserves.store.entries_eq]
    by_cases hself : (plan.order event flow).key = key
    · subst hself
      rw [Function.update_self, if_neg fun h => hnew h.1, if_pos ⟨List.mem_cons_self, rfl⟩]
      rfl
    · rw [Function.update_of_ne (Ne.symm hself)]
      refine if_congr (and_congr_left fun hkey => ?_) rfl rfl
      rw [List.mem_cons, or_iff_right]
      exact fun hflow => hself (key_order_eq_iff.mpr ⟨hflow, hkey⟩)
  · rw [hrest.packets, hserves.packets, List.length_append, hlength]
    omega
  · rw [hrest.sections, hserves.sections, List.length_append, hlength]
    omega
  · rw [List.length_append, ← hlength, hrest.length_sent, List.length_cons, Nat.add_mul]
    omega
  · refine List.forall_mem_append.mpr ⟨fun wire hwire => ?_, hrest.isSent⟩
    obtain ⟨x, hx, packet, sequence, rfl, hframed⟩ := exists_of_mem_right hserves.sent hwire
    exact ⟨event, flow, hflow, x, List.mem_of_mem_take (List.mem_of_mem_drop hx), packet, sequence,
      rfl, hframed⟩

lemma mapM_serves (hplan : plan.Buildable) (hcontext : event.context.toNat < rotationContexts)
    {flows : List Flow} (hflows : ∀ flow ∈ flows, flow ∈ plan.flows d) (hnodup : flows.Nodup)
    (hp : plan.Follows p) (hroom : ∀ key : SectionKey, key.flow ∈ flows →
      key.context = event.context →
      (plan.refill d (p.store.entries key) event).length ≤ p.store.capacity) :
    plan.ServesAll d event flows p
      (flows.mapM (plan.buildFlow event ((plan.map d).partRange event.part event.parts)) p).2
      (flows.mapM (plan.buildFlow event ((plan.map d).partRange event.part event.parts))
        p).1.flatten := by
  induction flows generalizing p with
  | nil =>
    refine ⟨hp, rfl, fun key => (if_neg fun h => List.not_mem_nil h.1).symm, rfl, rfl, rfl, ?_, nofun⟩
    rw [List.length_nil, Nat.zero_mul]
    rfl
  | cons flow flows ih =>
    obtain ⟨hflow, hothers⟩ := List.forall_mem_cons.mp hflows
    obtain ⟨hnew, hnodup⟩ := List.nodup_cons.mp hnodup
    obtain rfl := direction_of_mem_flows hflow
    have hkey := hp.hasKey _ flow hflow event.context hcontext
    obtain ⟨sent, next, hrun, hserves⟩ := exists_run_flowStep hplan hp hkey
      (hroom (plan.order event flow).key List.mem_cons_self rfl)
    have hbuild : plan.buildFlow event ((plan.map flow.direction).partRange event.part event.parts)
        flow p = (sent, next) := by
      rw [buildFlow_eq, hrun]
      rfl
    -- the buckets of the other flows are as before, so they still have room
    have hrest := ih hothers hnodup (hserves.follows hp) fun key hmem hkey => by
      have hother : key ≠ (plan.order event flow).key := by
        rintro rfl
        exact hnew hmem
      rw [hserves.store.entries_eq, Function.update_of_ne hother, hserves.store.capacity_eq]
      exact hroom key (List.mem_cons_of_mem _ hmem) hkey
    rw [mapM_cons_apply, hbuild]
    dsimp only
    rw [List.flatten_cons]
    exact hrest.cons hflow hnew hserves

lemma nodup_flows (plan : Plan) (d : Direction) : (plan.flows d).Nodup := by
  have hinj {n m : ℕ} {bound : UInt8} (hn : n ∈ List.range bound.toNat)
      (hm : m ∈ List.range bound.toNat) (h : UInt8.ofNat n = UInt8.ofNat m) : n = m := by
    have hn := List.mem_range.mp hn
    have hm := List.mem_range.mp hm
    have hbound := bound.toNat_lt
    rwa [← UInt8.toNat_inj, UInt8.toNat_ofNat', UInt8.toNat_ofNat',
      Nat.mod_eq_of_lt (by omega), Nat.mod_eq_of_lt (by omega)] at h
  rw [flows, List.nodup_flatMap]
  constructor
  · intro carrier _
    refine List.nodup_range.map_on fun n hn m hm h => hinj hn hm ?_
    exact congrArg Flow.antenna h
  · refine List.nodup_range.imp_of_mem fun {n m} hn hm hne => ?_
    intro flow hflow hflow'
    obtain ⟨antenna, -, rfl⟩ := List.mem_map.mp hflow
    obtain ⟨antenna', -, h⟩ := List.mem_map.mp hflow'
    exact hne (hinj hn hm (congrArg Flow.carrier h).symm)

lemma mem_flows_iff : flow ∈ plan.flows d ↔ flow.direction = d ∧
    flow.carrier.toNat < plan.config.carriers.toNat ∧
    flow.antenna.toNat < plan.config.antennas.toNat := by
  simp only [flows, List.mem_flatMap, List.mem_map, List.mem_range]
  constructor
  · rintro ⟨carrier, hcarrier, antenna, hantenna, rfl⟩
    refine ⟨rfl, ?_, ?_⟩
    · exact (UInt8.toNat_ofNat' ▸ Nat.mod_le _ _).trans_lt hcarrier
    · exact (UInt8.toNat_ofNat' ▸ Nat.mod_le _ _).trans_lt hantenna
  · rintro ⟨rfl, hcarrier, hantenna⟩
    refine ⟨_, hcarrier, _, hantenna, ?_⟩
    rw [UInt8.ofNat_toNat, UInt8.ofNat_toNat]

lemma serves_of_fdd (h : plan.frame = .fdd plan.config.mu) (slot : ℤ) (kind : SlotKind) :
    plan.frame.serves slot kind = true := by
  have hslot : plan.frame.slot slot = .paired := by
    rw [h, FrameStructure.slot]
    show ([PatternSlot.paired][(_ : ℕ) % 1]?).getD .paired = .paired
    rw [Nat.mod_one]
    rfl
  rw [FrameStructure.serves, hslot]
  simp [PatternSlot.serves, PatternSlot.paired]

/-- An event is served as a whole when the buckets of its direction have room. -/
theorem build_serves (hplan : plan.Buildable) (hp : plan.Follows p)
    (hcontext : event.context.toNat < rotationContexts)
    (hroom : ∀ key : SectionKey, key.flow ∈ plan.flows d → key.context = event.context →
      (plan.refill d (p.store.entries key) event).length ≤ p.store.capacity) :
    plan.ServesAll d event (plan.flows d) p (plan.build d event p).2 (plan.build d event p).1 := by
  have hserves := serves_of_fdd hplan.frame_eq event.target (.ofDirection d)
  simp only [build, hserves, true_and]
  split_ifs with hany
  · exact mapM_serves hplan hcontext (fun flow hflow => hflow) (plan.nodup_flows d) hp hroom
  · obtain ⟨hrange, hpart⟩ := not_or.mp hany
    have hnone := partElements_eq_nil hrange
    refine ⟨hp, rfl, fun key => ?_, rfl, rfl, rfl, ?_, fun _ h => absurd h List.not_mem_nil⟩
    · have hsame : plan.refill d (p.store.entries key) event = p.store.entries key := by
        rw [refill, kept, if_neg hpart, partSections, hnone, List.map_nil, List.append_nil]
      rw [hsame, ite_self]
      rfl
    · rw [hnone]
      rfl

end Plan

end OpenFronthaul
