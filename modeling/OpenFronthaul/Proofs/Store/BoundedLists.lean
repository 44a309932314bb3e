import OpenFronthaul.Proofs.Store.Changes

/-!
# The store as a finite map of bounded lists

A user of the store need not know of its table, its cursors and what lies behind them: the store
behaves as a map from keys to lists of bounded length (`BoundedLists`), whatever changes were made
and in whatever order.  The map of a store is `SectionStore.view`.  One change of the store is the
same change of its map (`simulates`), and so is a sequence of changes (`performAll_view`).
-/

namespace OpenFronthaul

open SectionStore

/-- The outcomes of changes that are made one after another, and the state in the end; a change that
fails does not keep the later ones from being made. -/
def performAll {σ α ε : Type} (perform : α → σ → Except ε Unit × σ) :
    List α → σ → List (Except ε Unit) × σ
  | [], s => ([], s)
  | change :: changes, s =>
    let (outcome, t) := perform change s
    let (outcomes, last) := performAll perform changes t
    (outcome :: outcomes, last)

/-- What every change preserves holds after a sequence of changes. -/
lemma performAll_preserves {σ α ε : Type} {perform : α → σ → Except ε Unit × σ} {P : σ → Prop}
    (hstep : ∀ change s, P s → P (perform change s).2) (changes : List α) {s : σ} (h : P s) :
    P (performAll perform changes s).2 := by
  induction changes generalizing s with
  | nil => exact h
  | cons change changes ih => exact ih (hstep change s h)

/-! ## Changes -/

/-- A change that is asked of a store. -/
inductive StoreChange where
  /-- Record a section. -/
  | add (key : SectionKey) (info : Section)
  /-- Claim the next free place and write to it. -/
  | reserve (key : SectionKey) (edit : Section → Section)
  /-- Empty one bucket. -/
  | reset (key : SectionKey)
  /-- Empty the buckets of a rotation context. -/
  | resetContext (context : UInt8)

namespace StoreChange

/-- The step of the store that makes a change. -/
def step : StoreChange → SectionStore.Step Unit
  | add key info => Step.add key info
  | reserve key edit => Step.reserveThen key edit
  | reset key => Step.reset key
  | resetContext context => Step.resetContext context

/-- Make a change of a store. -/
def perform (change : StoreChange) (store : SectionStore) : Except Error Unit × SectionStore :=
  change.step.run store

/-- The key of the list that a change makes longer. -/
def appendsTo? : StoreChange → Option SectionKey
  | add key _ | reserve key _ => some key
  | reset _ | resetContext _ => none

/-- The keys that a change is about. -/
def addresses : StoreChange → SectionKey → Prop
  | add key _ | reserve key _ | reset key => fun other => other = key
  | resetContext context => fun other => other.context = context

end StoreChange

/-! ## The map -/

/-- A map from keys to lists of sections. -/
structure BoundedLists where
  /-- Component carriers. -/
  carriers : Nat
  /-- Antennas of each carrier. -/
  antennas : Nat
  /-- The most sections of a list. -/
  capacity : Nat
  /-- The lists. -/
  lists : SectionKey → List Section

namespace BoundedLists

/-- The map of empty lists. -/
def empty (carriers antennas capacity : Nat) : BoundedLists :=
  ⟨carriers, antennas, capacity, fun _ => []⟩

/-- The keys of the map. -/
def hasKey (map : BoundedLists) (key : SectionKey) : Bool :=
  key.context.toNat < rotationContexts && key.carrier.toNat < map.carriers
    && key.antenna.toNat < map.antennas

/-- Whether a change is about keys of the map. -/
def accepts (map : BoundedLists) : StoreChange → Bool
  | .add key _ | .reserve key _ | .reset key => map.hasKey key
  | .resetContext context => context.toNat < rotationContexts

/-- Whether the list that a change would make longer has no room. -/
def isFull (map : BoundedLists) (change : StoreChange) : Bool :=
  change.appendsTo?.any fun key => map.capacity ≤ (map.lists key).length

/-- The lists after a change. -/
def listsAfter (map : BoundedLists) : StoreChange → SectionKey → List Section
  | .add key info => Function.update map.lists key (map.lists key ++ [info])
  | .reserve key edit => Function.update map.lists key (map.lists key ++ [edit default])
  | .reset key => Function.update map.lists key []
  | .resetContext context => fun key => if key.context = context then [] else map.lists key

/-- Make a change of a map; what is refused changes nothing. -/
def perform (change : StoreChange) (map : BoundedLists) : Except ErrorKind Unit × BoundedLists :=
  if map.accepts change = false then (.error .invalidParameter, map)
  else if map.isFull change then (.error .resource, map)
  else (.ok (), { map with lists := map.listsAfter change })

/-- No list is longer than the limit, and there is nothing under a key that is not of the map. -/
structure Bounded (map : BoundedLists) : Prop where
  length_le : ∀ key, (map.lists key).length ≤ map.capacity
  eq_nil : ∀ key, map.hasKey key = false → map.lists key = []

variable {map : BoundedLists} {change : StoreChange}

lemma perform_of_refused (h : map.accepts change = false) :
    perform change map = (.error .invalidParameter, map) :=
  if_pos h

lemma perform_of_full (h : map.accepts change = true) (hfull : map.isFull change = true) :
    perform change map = (.error .resource, map) := by
  rw [perform, if_neg (by simp [h]), if_pos hfull]

lemma perform_of_room (h : map.accepts change = true) (hroom : map.isFull change = false) :
    perform change map = (.ok (), { map with lists := map.listsAfter change }) := by
  rw [perform, if_neg (by simp [h]), if_neg (by simp [hroom])]

/-- A change stays with the lists that it is about. -/
lemma lists_perform {key : SectionKey} (h : ¬change.addresses key) :
    (perform change map).2.lists key = map.lists key := by
  unfold perform
  split_ifs with haccepts hfull
  · rfl
  · rfl
  · cases change with
    | add other info | reserve other edit | reset other => exact Function.update_of_ne h _ _
    | resetContext context => exact if_neg h

/-- A change fails for want of a place exactly when the list to be made longer is full. -/
lemma perform_resource_iff : (perform change map).1 = .error .resource ↔
    map.accepts change = true ∧ map.isFull change = true := by
  unfold perform
  split_ifs with haccepts hfull
  · simp [haccepts]
  · simp [haccepts, hfull]
  · simp [hfull]

/-- A change is refused as invalid exactly when it is not about keys of the map. -/
lemma perform_invalid_iff : (perform change map).1 = .error .invalidParameter ↔
    map.accepts change = false := by
  unfold perform
  split_ifs with haccepts hfull
  · simp [haccepts]
  · simp [haccepts]
  · simp [haccepts]

/-- There are no other failures, and all of them leave the map as it is. -/
lemma perform_of_error {kind : ErrorKind} (h : (perform change map).1 = .error kind) :
    (kind = .resource ∨ kind = .invalidParameter) ∧ (perform change map).2 = map := by
  unfold perform at h ⊢
  split_ifs at h ⊢ with haccepts hfull
  · exact ⟨.inr (by simpa using h.symm), rfl⟩
  · exact ⟨.inl (by simpa using h.symm), rfl⟩

/-- A change keeps the keys of the map and the limit. -/
lemma shape_perform (change : StoreChange) (map : BoundedLists) :
    (perform change map).2.carriers = map.carriers ∧
      (perform change map).2.antennas = map.antennas ∧
      (perform change map).2.capacity = map.capacity := by
  unfold perform
  split_ifs <;> exact ⟨rfl, rfl, rfl⟩

lemma isFull_iff : map.isFull change = true ↔
    ∃ key, change.appendsTo? = some key ∧ map.capacity ≤ (map.lists key).length := by
  simp [isFull, Option.any_eq_true]

/-- Another list for one key keeps the bounds if it is within them itself. -/
lemma Bounded.update (hmap : map.Bounded) {key : SectionKey} {list : List Section}
    (hlength : list.length ≤ map.capacity) (hkey : map.hasKey key = true ∨ list = []) :
    Bounded { map with lists := Function.update map.lists key list } := by
  constructor
  · intro other
    by_cases hne : other = key
    · subst hne
      simpa using hlength
    · simpa [hne] using hmap.length_le other
  · intro other hother
    by_cases hne : other = key
    · subst hne
      have hnot : map.hasKey other = false := hother
      rcases hkey with hhas | hnil
      · rw [hnot] at hhas
        cases hhas
      · simpa using hnil
    · simpa [hne] using hmap.eq_nil other hother

/-- No change makes a list too long, or gives a list to a key that is not of the map. -/
lemma Bounded.perform (hmap : map.Bounded) (change : StoreChange) :
    (BoundedLists.perform change map).2.Bounded := by
  unfold BoundedLists.perform
  split_ifs with haccepts hfull
  · exact hmap
  · exact hmap
  · -- a list that is appended to is not full, since the change was not refused
    have happend : ∀ key info, change.appendsTo? = some key → map.hasKey key = true →
        Bounded { map with lists := Function.update map.lists key (map.lists key ++ [info]) } := by
      intro key info hkey hhas
      have hroom : (map.lists key).length < map.capacity := by
        by_contra hge
        exact hfull (isFull_iff.mpr ⟨key, hkey, by omega⟩)
      exact hmap.update (by simpa using hroom) (.inl hhas)
    cases change with
    | add key info | reserve key edit => exact happend key _ rfl (by simpa [accepts] using haccepts)
    | reset key => exact hmap.update (Nat.zero_le _) (.inr rfl)
    | resetContext context =>
      refine ⟨fun other => ?_, fun other hother => ?_⟩
      · simp only [listsAfter]
        split_ifs
        · simp
        · exact hmap.length_le other
      · simp only [listsAfter]
        split_ifs
        · rfl
        · exact hmap.eq_nil other hother

end BoundedLists

/-! ## The map of a store -/

namespace SectionStore

variable {store : SectionStore}

/-- The map that a user of a store sees. -/
def view (store : SectionStore) : BoundedLists :=
  ⟨store.carriers, store.antennas, store.capacity, store.entries⟩

lemma bounded_view (store : SectionStore) : store.view.Bounded :=
  ⟨fun _ => length_entries_le, fun _ h => entries_of_not_hasKey h⟩

lemma view_create {carriers antennas capacity : Nat}
    (h : create carriers antennas capacity = .ok store) :
    store.view = .empty carriers antennas capacity ∧ store.Shaped := by
  have hempty := funext (entries_create h)
  rw [create, guard_eq_ok] at h
  obtain ⟨hshape, h⟩ := h
  obtain rfl := Except.ok.inj h
  refine ⟨?_, ⟨by dsimp; omega, by dsimp; omega, by dsimp; omega, by dsimp; omega⟩⟩
  rw [view, hempty]
  rfl

lemma Updates.view_eq {after : SectionStore} {key : SectionKey} {bucket : List Section}
    (h : Updates store key bucket after) :
    after.view = { store.view with lists := Function.update store.view.lists key bucket } := by
  simp only [view, h.carriers_eq, h.antennas_eq, h.capacity_eq, h.entries_eq]

lemma Updates.shaped {after : SectionStore} {key : SectionKey} {bucket : List Section}
    (h : Updates store key bucket after) (hshape : store.Shaped) : after.Shaped := by
  obtain ⟨hc, hc', ha, ha'⟩ := hshape
  constructor <;> simpa only [h.carriers_eq, h.antennas_eq]

/-- A change of a store has the outcome of the same change of its map, and the effect. -/
def Simulates (change : StoreChange) (store : SectionStore) : Prop :=
  ((change.perform store).1.mapError Error.kind, (change.perform store).2.view) =
    BoundedLists.perform change store.view ∧ (change.perform store).2.Shaped

lemma simulates_reserveThen {change : StoreChange} {key : SectionKey} {edit : Section → Section}
    (hshape : store.Shaped) (hstep : change.step = Step.reserveThen key edit)
    (haccepts : store.view.accepts change = store.hasKey key)
    (happends : change.appendsTo? = some key)
    (hlists : store.view.listsAfter change =
      Function.update store.entries key (store.entries key ++ [edit default])) :
    Simulates change store := by
  have hfull : store.view.isFull change = decide (store.capacity ≤ (store.entries key).length) := by
    rw [BoundedLists.isFull, happends]
    rfl
  unfold Simulates StoreChange.perform
  rw [hstep]
  -- the step ends in one of three ways, and the map goes the same way
  by_cases hkey : store.hasKey key = true
  · by_cases hroom : (store.entries key).length < store.capacity
    · obtain ⟨after, hrun, hupdates⟩ := Step.writes_reserveThen edit hkey hroom
      rw [hrun, BoundedLists.perform_of_room (haccepts.trans hkey) (by simpa [hfull] using hroom)]
      refine ⟨?_, hupdates.shaped hshape⟩
      rw [hupdates.view_eq, hlists]
      rfl
    · rw [Step.run_reserveThen_of_full hkey (by omega),
        BoundedLists.perform_of_full (haccepts.trans hkey) (by simpa [hfull] using hroom)]
      exact ⟨rfl, hshape⟩
  · have hnot := eq_false_of_ne_true hkey
    rw [Step.run_reserveThen_of_not_hasKey hnot,
      BoundedLists.perform_of_refused (haccepts.trans hnot)]
    exact ⟨rfl, hshape⟩

/-- One change of a store is the same change of its map. -/
theorem simulates (change : StoreChange) (hshape : store.Shaped) : Simulates change store := by
  cases change with
  | add key info => exact simulates_reserveThen hshape rfl rfl rfl rfl
  | reserve key edit => exact simulates_reserveThen hshape rfl rfl rfl rfl
  | reset key =>
    unfold Simulates StoreChange.perform
    by_cases hkey : store.hasKey key = true
    · obtain ⟨after, hrun, hupdates⟩ := Step.writes_reset hkey
      have haccepts : store.view.accepts (.reset key) = true := hkey
      rw [StoreChange.step, hrun, BoundedLists.perform_of_room haccepts rfl]
      refine ⟨?_, hupdates.shaped hshape⟩
      rw [hupdates.view_eq]
      rfl
    · have hnot := eq_false_of_ne_true hkey
      have hrefused : store.view.accepts (.reset key) = false := hnot
      rw [StoreChange.step, Step.run_reset_of_not_hasKey hnot,
        BoundedLists.perform_of_refused hrefused]
      exact ⟨rfl, hshape⟩
  | resetContext context =>
    unfold Simulates StoreChange.perform
    by_cases hcontext : context.toNat < rotationContexts
    · obtain ⟨after, hrun, hcarriers, hantennas, hcapacity, hentries⟩ :=
        Step.run_resetContext_of_lt hshape hcontext
      have haccepts : store.view.accepts (.resetContext context) = true := by
        simpa [BoundedLists.accepts] using hcontext
      rw [StoreChange.step, hrun, BoundedLists.perform_of_room haccepts rfl]
      refine ⟨?_, ?_⟩
      · simp only [view, hcarriers, hantennas, hcapacity, funext hentries]
        rfl
      · obtain ⟨hc, hc', ha, ha'⟩ := hshape
        constructor <;> simpa only [hcarriers, hantennas]
    · obtain ⟨key, hrun⟩ := Step.run_resetContext_of_ge hshape (Nat.le_of_not_lt hcontext)
      have hrefused : store.view.accepts (.resetContext context) = false := by
        simpa [BoundedLists.accepts] using hcontext
      rw [StoreChange.step, hrun, BoundedLists.perform_of_refused hrefused]
      exact ⟨rfl, hshape⟩

/-- A sequence of changes of a store is the same sequence of changes of its map. -/
theorem performAll_view (changes : List StoreChange) (hshape : store.Shaped) :
    let run := performAll StoreChange.perform changes store
    (run.1.map (·.mapError Error.kind), run.2.view) =
      performAll BoundedLists.perform changes store.view ∧ run.2.Shaped := by
  induction changes generalizing store with
  | nil => exact ⟨rfl, hshape⟩
  | cons change changes ih =>
    obtain ⟨hstep, hshape'⟩ := simulates change hshape
    obtain ⟨hrest, hlast⟩ := ih hshape'
    refine ⟨?_, hlast⟩
    simp only [performAll, List.map_cons, ← hstep, ← hrest]

/-! ## Observations -/

/-- Every question about a store has the answer that the lists of a map give. -/
structure Shows (store : SectionStore) (map : BoundedLists) : Prop where
  entries : ∀ key, store.entries key = map.lists key
  size : ∀ key, store.size key = (map.lists key).length
  get : ∀ key index, store.get? key index = (map.lists key)[index]?
  findById : ∀ key id, store.findById? key id = (map.lists key).find? (·.id = id)
  iterate : ∀ key cursor, store.iterate key cursor =
    ((map.lists key)[cursor]?, if cursor < (map.lists key).length then cursor + 1 else cursor)
  lookup : ∀ key symbol prb, store.lookup? key symbol prb =
    if symbol < symbolsPerSlot then (map.lists key).find? (·.covers symbol prb) else none

lemma iterate_eq {key : SectionKey} {cursor : ℕ} : store.iterate key cursor =
    ((store.entries key)[cursor]?,
      if cursor < (store.entries key).length then cursor + 1 else cursor) := by
  unfold SectionStore.iterate get?
  by_cases h : cursor < (store.entries key).length
  · rw [List.getElem?_eq_getElem h, if_pos h]
  · rw [List.getElem?_eq_none (by omega), if_neg h]

lemma shows_view (store : SectionStore) : store.Shows store.view where
  entries _ := rfl
  size _ := size_eq_length
  get _ _ := rfl
  findById _ _ := rfl
  iterate _ _ := iterate_eq
  lookup _ _ _ := rfl

/-- How a change of a store may end, and what it may touch. -/
structure Contract (change : StoreChange) (before : SectionStore) : Prop where
  /-- Want of room is reported exactly for a full list. -/
  resource_iff : (∃ e, (change.perform before).1 = .error e ∧ e.kind = .resource) ↔
    ∃ key, change.appendsTo? = some key ∧ before.hasKey key = true ∧
      (before.entries key).length = before.capacity
  /-- An invalid parameter is reported exactly for a key or a context out of range. -/
  invalid_iff : (∃ e, (change.perform before).1 = .error e ∧ e.kind = .invalidParameter) ↔
    before.view.accepts change = false
  /-- Nothing else is reported, and what is reported has no effect. -/
  of_error : ∀ e, (change.perform before).1 = .error e →
    (e.kind = .resource ∨ e.kind = .invalidParameter) ∧
      (change.perform before).2.entries = before.entries
  /-- Lists that the change is not about stay. -/
  frame : ∀ key, ¬change.addresses key →
    (change.perform before).2.entries key = before.entries key

/-- A failure of a class is a failure whose class is reported. -/
lemma mapError_eq_error_iff {α : Type} {x : Except Error α} {kind : ErrorKind} :
    x.mapError Error.kind = .error kind ↔ ∃ e, x = .error e ∧ e.kind = kind := by
  cases x <;> simp [Except.mapError]

/-- The contract of a change is read off its map. -/
lemma contract (change : StoreChange) (hshape : store.Shaped) : Contract change store := by
  obtain ⟨hstep, -⟩ := simulates change hshape
  have houtcome := congrArg Prod.fst hstep
  have hview := congrArg Prod.snd hstep
  dsimp only at houtcome hview
  have hentries : (change.perform store).2.entries =
      (BoundedLists.perform change store.view).2.lists := congrArg BoundedLists.lists hview
  constructor
  case resource_iff =>
    rw [← mapError_eq_error_iff, houtcome, BoundedLists.perform_resource_iff,
      BoundedLists.isFull_iff]
    constructor
    · rintro ⟨haccepts, key, hkey, hfull⟩
      refine ⟨key, hkey, ?_, le_antisymm length_entries_le hfull⟩
      cases change with
      | add other _ | reserve other _ => exact Option.some.inj hkey ▸ haccepts
      | reset _ | resetContext _ => cases hkey
    · rintro ⟨key, hkey, hhas, hfull⟩
      refine ⟨?_, key, hkey, hfull.ge⟩
      cases change with
      | add other _ | reserve other _ => exact (Option.some.inj hkey).symm ▸ hhas
      | reset _ | resetContext _ => cases hkey
  case invalid_iff =>
    rw [← mapError_eq_error_iff, houtcome, BoundedLists.perform_invalid_iff]
  case of_error =>
    intro e he
    have hkind : (BoundedLists.perform change store.view).1 = .error e.kind := by
      rw [← houtcome, mapError_eq_error_iff]
      exact ⟨e, he, rfl⟩
    obtain ⟨hcases, hmap⟩ := BoundedLists.perform_of_error hkind
    refine ⟨hcases, ?_⟩
    rw [hentries, hmap]
    rfl
  case frame =>
    intro key hkey
    rw [hentries, BoundedLists.lists_perform hkey]
    rfl

/-- After any sequence of changes of a new store, the changes have had the outcomes that they have
on the map of empty lists, every question about the store has the answer that the lists of the map
give, and the next change, whichever it is, keeps to its contract. -/
theorem refines_boundedLists {carriers antennas capacity : Nat}
    (h : create carriers antennas capacity = .ok store) (changes : List StoreChange) :
    let (outcomes, after) := performAll StoreChange.perform changes store
    let (expected, map) :=
      performAll BoundedLists.perform changes (.empty carriers antennas capacity)
    outcomes.map (·.mapError Error.kind) = expected ∧ after.Shows map ∧
      (map.Bounded ∧ map.carriers = carriers ∧ map.antennas = antennas ∧
        map.capacity = capacity) ∧
      ∀ change, Contract change after := by
  obtain ⟨hview, hshape⟩ := view_create h
  obtain ⟨hruns, hshape'⟩ := performAll_view changes hshape
  rw [hview] at hruns
  have houtcomes := congrArg Prod.fst hruns
  have hmap := congrArg Prod.snd hruns
  dsimp only at houtcomes hmap
  have hbounded : (BoundedLists.empty carriers antennas capacity).Bounded :=
    hview ▸ bounded_view store
  refine ⟨houtcomes, hmap ▸ shows_view _, ?_, fun change => contract change hshape'⟩
  refine performAll_preserves (P := fun map : BoundedLists => map.Bounded ∧
    map.carriers = carriers ∧ map.antennas = antennas ∧ map.capacity = capacity)
    (fun change map hmap => ?_) changes ⟨hbounded, rfl, rfl, rfl⟩
  obtain ⟨hc, ha, hcapacity⟩ := BoundedLists.shape_perform change map
  exact ⟨hmap.1.perform change, hc.trans hmap.2.1, ha.trans hmap.2.2.1,
    hcapacity.trans hmap.2.2.2⟩

/-- A store of one place: the second section is refused, emptying the context makes room again, and
what was there before does not come back. -/
theorem refines_boundedLists_one : ∃ store, create 1 1 1 = .ok store ∧
    let key : SectionKey := ⟨.dl, 0, 0, 3⟩
    let changes : List StoreChange := [.add key { id := 7 }, .add key { id := 8 },
      .resetContext 3, .reserve key fun info => { info with beamId := 9 }]
    let (outcomes, after) := performAll StoreChange.perform changes store
    outcomes.map (·.mapError Error.kind) = [.ok (), .error .resource, .ok (), .ok ()] ∧
      after.entries key = [{ beamId := 9 }] := by
  obtain ⟨store, hstore⟩ : ∃ store, create 1 1 1 = .ok store := ⟨_, rfl⟩
  refine ⟨store, hstore, ?_⟩
  obtain ⟨houtcomes, hshows, -, -⟩ := refines_boundedLists hstore
    [.add ⟨.dl, 0, 0, 3⟩ { id := 7 }, .add ⟨.dl, 0, 0, 3⟩ { id := 8 }, .resetContext 3,
      .reserve ⟨.dl, 0, 0, 3⟩ fun info => { info with beamId := 9 }]
  refine ⟨houtcomes.trans (by decide), (hshows.entries _).trans (by decide)⟩

end SectionStore

end OpenFronthaul
