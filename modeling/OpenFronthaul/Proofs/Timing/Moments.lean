import OpenFronthaul.Proofs.Timing.Firing
import OpenFronthaul.Proofs.Timing.Rounding
import Mathlib.Tactic

/-!
# Callbacks of applications in time

An application registers a callback for a moment of a symbol.  The callback then fires as many
symbols from that symbol of its target slot as the rounded delay says, whatever else is done to the
registry, for as long as it is registered (`Registration.inTime_of_register`).  What carries this
over a run is the number of the callback: it is given once, and the callback stays on its symbol
(`Reaches.mem_bucket`).
-/

namespace OpenFronthaul

/-- The symbols from the start of the clock to a firing. -/
def Firing.moment (f : Firing) : ℕ :=
  symbolsPerSlot * f.time.absoluteSlot + f.time.symbol

namespace Scheduler

variable {s later : Scheduler} {mu : Numerology} {budget : DelayBudget} {moment : Moment}
  {f : Firing}

/-! ## Rounded distances -/

/-- The symbols from a symbol to a moment of it, for a delay budget. -/
def momentSymbols (mu : Numerology) (budget : DelayBudget) : Moment → ℤ
  | .onAir => 0
  | .receiveWindowBegin => (budget.ta4Min.toNat * 1000 / mu.symbolNanos : ℕ)
  | .receiveWindowEnd => (budget.ta4Max.toNat * 1000 ⌈/⌉ mu.symbolNanos : ℕ)
  | .transmitWindowBegin => -(budget.t1aMaxUser.toNat * 1000 / mu.symbolNanos : ℕ)
  | .transmitWindowEnd => -(budget.t1aMinUser.toNat * 1000 / mu.symbolNanos : ℕ)

lemma momentDistance_eq (s : Scheduler) (moment : Moment) :
    s.momentDistance moment = momentSymbols s.table.mu s.budget moment := by
  cases moment with
  | onAir => rfl
  | receiveWindowEnd => rw [momentDistance, symbolsIn_up_eq_ceilDiv, momentSymbols]
  | receiveWindowBegin | transmitWindowBegin | transmitWindowEnd =>
    rw [momentDistance, symbolsIn_down_eq_div, momentSymbols]

lemma div_le_ceilDiv_of_le (mu : Numerology) {short long : ℕ} (h : short ≤ long) :
    short * 1000 / mu.symbolNanos ≤ long * 1000 ⌈/⌉ mu.symbolNanos :=
  calc short * 1000 / mu.symbolNanos
      ≤ long * 1000 / mu.symbolNanos := Nat.div_le_div_right (Nat.mul_le_mul_right 1000 h)
    _ = long * 1000 ⌊/⌋ mu.symbolNanos := (Nat.floorDiv_eq_div _ _).symm
    _ ≤ long * 1000 ⌈/⌉ mu.symbolNanos := floorDiv_le_ceilDiv

/-- A delay of 32 bits has fewer than 2²⁹ symbols. -/
lemma ceilDiv_symbolNanos_lt (mu : Numerology) (micros : UInt32) :
    micros.toNat * 1000 ⌈/⌉ mu.symbolNanos < 2 ^ 29 := by
  have hmicros := micros.toNat_lt
  refine lt_of_le_of_lt ((ceilDiv_le_iff_le_mul (symbolNanos_pos mu)).mpr ?_)
    (by decide : 481067126 < 2 ^ 29)
  rcases lengths mu with ⟨-, hsymbol⟩ | ⟨-, hsymbol⟩ | ⟨-, hsymbol⟩ | ⟨-, hsymbol⟩ <;>
    rw [hsymbol] <;>
    omega

/-- The distances are far from the bounds of 32 bits. -/
lemma momentSymbols_mem (mu : Numerology) (budget : DelayBudget) (moment : Moment) :
    momentSymbols mu budget moment ∈ Set.Ioo (-2 ^ 29 : ℤ) (2 ^ 29) := by
  have hdown (micros : UInt32) : micros.toNat * 1000 / mu.symbolNanos < 2 ^ 29 :=
    (div_le_ceilDiv_of_le mu le_rfl).trans_lt (ceilDiv_symbolNanos_lt mu micros)
  have hafter {n : ℕ} (h : n < 2 ^ 29) : (n : ℤ) ∈ Set.Ioo (-2 ^ 29 : ℤ) (2 ^ 29) := by
    rw [Set.mem_Ioo]
    omega
  have hbefore {n : ℕ} (h : n < 2 ^ 29) : (-n : ℤ) ∈ Set.Ioo (-2 ^ 29 : ℤ) (2 ^ 29) := by
    rw [Set.mem_Ioo]
    omega
  cases moment with
  | onAir => exact hafter (by decide : 0 < 2 ^ 29)
  | receiveWindowBegin => exact hafter (hdown budget.ta4Min)
  | receiveWindowEnd => exact hafter (ceilDiv_symbolNanos_lt mu budget.ta4Max)
  | transmitWindowBegin => exact hbefore (hdown budget.t1aMaxUser)
  | transmitWindowEnd => exact hbefore (hdown budget.t1aMinUser)

/-- Two moments of a symbol between which its data is received, or sent.  The delays of the window
are in order. -/
def IsWindow (budget : DelayBudget) (opening closing : Moment) : Prop :=
  opening = .receiveWindowBegin ∧ closing = .receiveWindowEnd ∧ budget.ta4Min ≤ budget.ta4Max ∨
  opening = .transmitWindowBegin ∧ closing = .transmitWindowEnd ∧
    budget.t1aMinUser ≤ budget.t1aMaxUser

/-- Rounding does not close a window before it opens. -/
lemma momentSymbols_le {opening closing : Moment} (h : IsWindow budget opening closing)
    (mu : Numerology) : momentSymbols mu budget opening ≤ momentSymbols mu budget closing := by
  obtain ⟨rfl, rfl, hle⟩ | ⟨rfl, rfl, hle⟩ := h
  · exact Int.ofNat_le.mpr (div_le_ceilDiv_of_le mu (UInt32.le_iff_toNat_le.mp hle))
  · exact neg_le_neg (Int.ofNat_le.mpr
      (Nat.div_le_div_right (Nat.mul_le_mul_right 1000 (UInt32.le_iff_toNat_le.mp hle))))

/-! ## Registrations -/

/-- A callback that an application registered for a moment of a symbol. -/
structure Registration where
  /-- The moment. -/
  moment : Moment
  /-- The symbol that the moment is one of. -/
  symbol : ℕ
  /-- The registry before. -/
  before : Scheduler
  /-- The answer: the symbol on which the callback fires. -/
  onAir : ℕ
  /-- The registry afterwards. -/
  after : Scheduler

/-- A registration is a change of the registry. -/
lemma Reaches.register {t u : Scheduler} {symbol onAir : ℕ} (h : Reaches s t)
    (hrun : (Step.register moment symbol).run t = (.ok onAir, u)) : Reaches s u := by
  have hchange := h.change (.register moment symbol)
  rw [RegistryChange.step, Step.run_discard, hrun] at hchange
  exact hchange

namespace Registration

variable {r : Registration}

/-- The number of the callback. -/
def number (r : Registration) : ℕ :=
  r.before.nextId

/-- The callback was registered in a registry that started empty. -/
structure IsOf (r : Registration) (mu : Numerology) (budget : DelayBudget) : Prop where
  reaches : Reaches (create mu budget) r.before
  run_eq : (Step.register r.moment r.symbol).run r.before = (.ok r.onAir, r.after)

/-- The callback fires in a registry that came of the one it was registered in, on some symbol of
the clock. -/
structure Fires (r : Registration) (mu : Numerology) (later : Scheduler) (f : Firing) : Prop where
  reaches : Reaches r.after later
  mem : ∃ symbols, f ∈ later.firingsAt (AirClock.now ⟨mu, symbols⟩)
  id_eq : f.entry.id = r.number

lemma IsOf.symbol_lt (h : r.IsOf mu budget) : r.symbol < 14 := by
  have hrun := h.run_eq
  rw [Step.run_register] at hrun
  split_ifs at hrun with _ hrange
  · cases hrun
  · cases hrun
  · cases hrun
  · exact Nat.lt_of_not_le hrange

lemma IsOf.reaches_after (h : r.IsOf mu budget) : Reaches (create mu budget) r.after :=
  h.reaches.register h.run_eq

lemma IsOf.consistent (h : r.IsOf mu budget) : Consistent r.after :=
  h.reaches_after.consistent (.create mu budget)

/-- The callback stands among those of its symbol, for a slot that lies as far ahead as the distance
says. -/
lemma IsOf.exists_entry (h : r.IsOf mu budget) :
    ∃ entry ∈ r.after.bucket r.onAir, entry.id = r.number ∧ entry.kind = .user r.moment ∧
      (SymbolOffset.mk r.onAir entry.slots).position =
        r.symbol + momentSymbols mu budget r.moment := by
  obtain ⟨hbudget, htable⟩ := h.reaches.settings_eq (.create mu budget)
  have hdistance : r.before.momentDistance r.moment = momentSymbols mu budget r.moment := by
    rw [momentDistance_eq, hbudget, htable]
    rfl
  rw [← hdistance]
  exact Step.fires_of_register h.run_eq

/-- Whenever the callback fires, it is on its symbol and as far from its target as the distance
says. -/
lemma IsOf.of_fires (h : r.IsOf mu budget) (hf : r.Fires mu later f) :
    f.time.symbol = r.onAir ∧ (later.told f).kind = .user r.moment ∧
      (later.told f).target = mu.wrapSlot f.served ∧
      f.moment = 14 * f.served + r.symbol + momentSymbols mu budget r.moment := by
  obtain ⟨symbols, hmem⟩ := hf.mem
  obtain ⟨htime, hentry⟩ := mem_bucket_of_mem_firingsAt hmem
  obtain ⟨entry, hown, hid, hkind, hposition⟩ := h.exists_entry
  -- the number was given when the callback was registered, so that it is the same callback
  have hlt : f.entry.id < r.after.nextId := by
    rw [hf.id_eq, ← hid]
    exact h.consistent.ids_lt entry (mem_live.mpr ⟨_, hown⟩)
  have hold := hf.reaches.mem_bucket h.consistent hentry hlt
  obtain ⟨hsymbol, rfl⟩ := bucket_unique h.consistent.ids_nodup hold hown (hf.id_eq.trans hid.symm)
  refine ⟨hsymbol, hkind, ?_, ?_⟩
  · have htable := (hf.reaches.settings_eq h.consistent).2.trans
      (h.reaches_after.settings_eq (.create mu budget)).2
    have hmu : later.table.mu = mu := congrArg DeadlineTable.mu htable
    rw [told, Firing.served, htime]
    exact target_event hmu symbols f.entry
  · rw [SymbolOffset.position, symbolsPerSlot] at hposition
    dsimp only at hposition
    rw [Firing.moment, Firing.served, hsymbol, symbolsPerSlot]
    push_cast
    omega

/-- A callback of an application fires in time. -/
structure InTime (r : Registration) (mu : Numerology) (budget : DelayBudget) : Prop where
  symbol_lt : r.symbol < 14
  onAir_lt : r.onAir < 14
  exists_entry : ∃ entry ∈ r.after.bucket r.onAir, entry.id = r.number ∧
    entry.kind = .user r.moment ∧
    entry.slots = -((r.symbol + momentSymbols mu budget r.moment) / 14)
  /-- No number on the way to the entry leaves 32 bits. -/
  fits : ∀ n ∈ [momentSymbols mu budget r.moment, -momentSymbols mu budget r.moment,
      r.symbol + momentSymbols mu budget r.moment,
      (r.symbol + momentSymbols mu budget r.moment) / 14,
      -((r.symbol + momentSymbols mu budget r.moment) / 14)],
    n ∈ Set.Ico (-2 ^ 31 : ℤ) (2 ^ 31)
  /-- The callback is told its target slot, and fires the distance from its symbol there. -/
  of_fires : ∀ later f, r.Fires mu later f → f.time.symbol = r.onAir ∧
    (later.told f).kind = .user r.moment ∧ (later.told f).target = mu.wrapSlot f.served ∧
    f.moment = 14 * f.served + r.symbol + momentSymbols mu budget r.moment
  /-- As long as it is registered and the interface runs, the callback fires in every slot. -/
  exists_fires : ∀ later, Reaches r.after later → later.isRunning = true →
    (∃ entry ∈ later.bucket r.onAir, entry.id = r.number) →
    ∀ slot, ∃ f, r.Fires mu later f ∧ f.time.absoluteSlot = slot
  /-- A window of a symbol does not close before it opens. -/
  opens_le : ∀ closing : Registration, closing.IsOf mu budget → closing.symbol = r.symbol →
    IsWindow budget r.moment closing.moment → ∀ later f later' g, r.Fires mu later f →
      closing.Fires mu later' g → f.served = g.served → f.moment ≤ g.moment

/-- A callback that an application registers fires in time, whatever happened before and whatever
happens afterwards. -/
theorem inTime_of_register (h : r.IsOf mu budget) : r.InTime mu budget where
  symbol_lt := h.symbol_lt
  onAir_lt := by
    obtain ⟨entry, hown, -⟩ := h.exists_entry
    exact lt_of_mem_bucket hown
  exists_entry := by
    obtain ⟨entry, hown, hid, hkind, hposition⟩ := h.exists_entry
    have hlt := lt_of_mem_bucket hown
    refine ⟨entry, hown, hid, hkind, ?_⟩
    rw [SymbolOffset.position, symbolsPerSlot] at hposition
    dsimp only at hposition
    omega
  fits := by
    obtain ⟨hlow, hhigh⟩ := Set.mem_Ioo.mp (momentSymbols_mem mu budget r.moment)
    have hsymbol := h.symbol_lt
    intro n hn
    simp only [List.mem_cons, List.not_mem_nil, or_false] at hn
    rw [Set.mem_Ico]
    omega
  of_fires _ _ hf := h.of_fires hf
  exists_fires := by
    rintro later hreaches hrun ⟨entry, hmem, hid⟩ slot
    have hclock := AirClock.now_startingAt (lt_of_mem_bucket hmem) mu slot
    have hdue : entry ∈ later.bucket (AirClock.startingAt mu slot r.onAir).now.symbol := by
      rwa [hclock]
    obtain ⟨f, hf, rfl⟩ := exists_mem_firingsAt hrun hdue
    refine ⟨f, ⟨hreaches, ⟨_, hf⟩, hid⟩, ?_⟩
    rw [(mem_bucket_of_mem_firingsAt hf).1, hclock]
  opens_le := by
    intro closing hclosing hsymbol hwindow later f later' g hf hg hserved
    obtain ⟨-, -, -, hopen⟩ := h.of_fires hf
    obtain ⟨-, -, -, hclose⟩ := hclosing.of_fires hg
    have hle := momentSymbols_le hwindow mu
    rw [hsymbol] at hclose
    omega

end Registration

namespace SendWindow

/-- A callback for the earliest sending of the third symbol of a slot, five symbols before it. -/
def opening : Registration where
  moment := .transmitWindowBegin
  symbol := 2
  before := .create .khz30 {}
  onAir := 11
  after := (create .khz30 {}).withUser .transmitWindowBegin ⟨11, 1⟩

/-- A callback for its latest sending, two symbols before it. -/
def closing : Registration where
  moment := .transmitWindowEnd
  symbol := 2
  before := opening.after
  onAir := 0
  after := opening.after.withUser .transmitWindowEnd ⟨0, 0⟩

/-- The interface runs. -/
def running : Scheduler :=
  (RegistryChange.start.step.run closing.after).2

lemma isOf_opening : opening.IsOf .khz30 {} where
  reaches := .refl
  run_eq := rfl

lemma isOf_closing : closing.IsOf .khz30 {} where
  reaches := isOf_opening.reaches_after
  run_eq := rfl

lemma reaches_running : Reaches opening.after running :=
  .change .start (Reaches.refl.register isOf_closing.run_eq)

/-- At the end of a second the callback for the opening is told a slot of the next one. -/
theorem inTime_of_register_overSecond :
    opening.IsOf .khz30 {} ∧ closing.IsOf .khz30 {} ∧ Reaches opening.after running ∧
      ∃ f, opening.Fires .khz30 running f ∧ f.time.absoluteSlot = 1999 ∧
        (running.told f).target = 0 ∧ f.moment = 14 * 2000 + 2 - 5 ∧
        ∀ g, closing.Fires .khz30 running g → g.served = 2000 → f.moment ≤ g.moment := by
  have hin := Registration.inTime_of_register isOf_opening
  have hlive : ∃ entry ∈ running.bucket opening.onAir, entry.id = opening.number :=
    ⟨_, .head _, rfl⟩
  obtain ⟨f, hf, hslot⟩ := hin.exists_fires running reaches_running rfl hlive 1999
  obtain ⟨hsymbol, -, htarget, hmoment⟩ := hin.of_fires running f hf
  have hdistance : momentSymbols .khz30 {} opening.moment = -5 := by decide
  have hsymbol_eq : opening.symbol = 2 := rfl
  have hfires : f.moment = 14 * 1999 + 11 := by
    rw [Firing.moment, hslot, hsymbol]
    rfl
  rw [hdistance, hsymbol_eq] at hmoment
  have hserved : f.served = 2000 := by omega
  refine ⟨isOf_opening, isOf_closing, reaches_running, f, hf, hslot, ?_, hfires, ?_⟩
  · rw [htarget, hserved]
    decide
  · intro g hg hsame
    have hwindow : IsWindow {} opening.moment closing.moment := .inr ⟨rfl, rfl, by decide⟩
    exact hin.opens_le closing isOf_closing rfl hwindow running f running g hf hg
      (hserved.trans hsame.symm)

end SendWindow

end Scheduler

end OpenFronthaul
