import OpenFronthaul.Proofs.Producer.Packets

/-!
# What a failure leaves behind

A producer that fails on an element of a map sends nothing for the map, but it does not go back
either.  The elements in front of the one that failed have left their sections in the bucket, have
taken their numbers of the flow and are counted, and a number may have been spent on the failure
itself (`buildRange_error_traces`).  So a failure goes without a trace only when it comes before
anything was sent and before a number was taken; a beam that cannot be written, behind an element
that can be, shows one that does not (`BadBeam.buildRange_leaves_section`).
-/

namespace OpenFronthaul

/-- The elements from one place of a list to before another, numbered by their places. -/
lemma zipIdx_drop_take {α : Type} (xs : List α) (first last : ℕ) :
    ((xs.take last).drop first).zipIdx (min first xs.length) =
      (xs.zipIdx.take last).drop first := by
  refine List.ext_getElem? fun i => ?_
  rw [List.getElem?_zipIdx, List.getElem?_drop, List.getElem?_drop, List.getElem?_take,
    List.getElem?_take, List.getElem?_zipIdx]
  split_ifs with hlast
  · rcases Nat.lt_or_ge (first + i) xs.length with hlt | hge
    · rw [Nat.min_eq_left (by omega), Nat.zero_add]
    · rw [List.getElem?_eq_none hge]
      rfl
  · rfl

namespace Producer

variable {p after : Producer} {o : Order}

/-! ## States without a difference -/

/-- No bucket, no sequence number and no count of packets or sections has changed. -/
structure Untouched (p after : Producer) : Prop where
  entries : ∀ key, after.store.entries key = p.store.entries key
  sequence : ∀ flow, after.nextSequence flow = p.nextSequence flow
  packets : after.counts.packets = p.counts.packets
  sections : after.counts.sections = p.counts.sections

/-- When every section took a number, and one more may have been taken, nothing has changed only if
there was no section and no number. -/
lemma Traces.untouched_iff {infos : List Section} {elements : ℕ} {numbered : Bool}
    (h : Traces o p after infos elements (infos.length + numbered.toNat)) :
    Untouched p after ↔ infos = [] ∧ numbered = false := by
  constructor
  · intro hsame
    have hinfos : infos = [] := by
      have hpackets := h.packets
      rw [hsame.packets] at hpackets
      exact List.length_eq_zero_iff.mp (by omega)
    refine ⟨hinfos, ?_⟩
    have hsequence := h.sequence o.flow
    rw [if_pos rfl, hsame.sequence, hinfos] at hsequence
    cases numbered with
    | false => rfl
    | true =>
      -- numbers are bytes, so only because a single one was taken it can be told from none
      have hone : (0 : UInt8) = 1 := by
        rw [← UInt8.add_right_inj (p.nextSequence o.flow), UInt8.add_zero]
        exact hsequence
      exact absurd hone (by decide)
  · rintro ⟨rfl, rfl⟩
    refine ⟨fun key => ?_, fun flow => ?_, h.packets, h.sections⟩
    · rw [h.store.entries_eq, List.append_nil, Function.update_eq_self]
    · rw [h.sequence]
      split_ifs
      · exact UInt8.add_zero _
      · rfl

/-! ## Elements in a row -/

/-- A failure among elements is one of the first element that fails, and those in front of it have
left their traces. -/
lemma run_buildElements_eq_error {index : ℕ} {elements : List PrbElement} {err : Error}
    (h : (buildElements o index elements).run p = (.error err, after)) :
    ∃ done x rest next numbered, elements.zipIdx index = done ++ x :: rest ∧
      Traces o p next (done.filterMap (recordFor? p.settings o)) done.length
        (done.filterMap (recordFor? p.settings o)).length ∧
      Fails next o x err numbered ∧
      Traces o p after (done.filterMap (recordFor? p.settings o)) done.length
        ((done.filterMap (recordFor? p.settings o)).length + numbered.toNat) := by
  induction elements generalizing index p after with
  | nil => cases h
  | cons e elements ih =>
    rw [run_buildElements_cons] at h
    rcases helement : (buildElement o index e).run p with ⟨err' | packet?, next⟩
    · rw [helement] at h
      cases h
      obtain ⟨numbered, hfails, htraces⟩ := run_buildElement_eq_error helement
      refine ⟨[], (e, index), elements.zipIdx (index + 1), p, numbered, rfl, .refl o p, hfails, ?_⟩
      simp only [List.filterMap_nil, List.length_nil, Nat.zero_add]
      exact htraces
    rw [helement] at h
    obtain ⟨hnext, hkeeps, -⟩ := run_buildElement_eq_ok helement
    -- the element has as many packets as sections
    have hsent : packet?.toList.length = (recordFor? p.settings o (e, index)).toList.length := by
      rw [Option.length_toList, Option.length_toList, hkeeps, isSome_recordFor?]
    rcases hrest : (buildElements o (index + 1) elements).run next with ⟨err' | others, last⟩
    · -- a later element fails, and the packet of this one is dropped, which only memory shows
      dsimp only at h
      rw [hrest] at h
      cases h
      obtain ⟨done, x, rest, stopped, numbered, hsplit, hstopped, hfails, hlast⟩ := ih hrest
      rw [hnext.settings] at hstopped hlast
      rw [hsent] at hnext
      refine ⟨(e, index) :: done, x, rest, stopped, numbered, ?_, ?_, hfails, ?_⟩
      · rw [List.zipIdx_cons, hsplit, List.cons_append]
      · rw [filterMap_recordFor?_cons, List.length_cons, Nat.add_comm done.length,
          List.length_append]
        exact hnext.trans hstopped
      · rw [filterMap_recordFor?_cons, List.length_cons, Nat.add_comm done.length,
          List.length_append, Nat.add_assoc]
        exact (hnext.trans hlast).congr_memory _
    · dsimp only at h
      rw [hrest] at h
      cases h

/-- What a producer is like when it failed on a part of a map.  The elements in front of the first
one that fails have left their sections, numbers and counts, and a number may have been spent on
that one.  Nothing is left of the failure exactly when none of them kept symbols and no number was
spent. -/
theorem buildRange_error_traces {map : PrbMap} {range : ℕ × ℕ} {err : Error}
    (h : (buildRange o map range).run p = (.error err, after)) :
    ∃ done x rest next numbered,
      (map.elements.zipIdx.take range.2).drop range.1 = done ++ x :: rest ∧
      Traces o p next (done.filterMap (recordFor? p.settings o)) done.length
        (done.filterMap (recordFor? p.settings o)).length ∧
      Fails next o x err numbered ∧
      Traces o p after (done.filterMap (recordFor? p.settings o)) done.length
        ((done.filterMap (recordFor? p.settings o)).length + numbered.toNat) ∧
      (Untouched p after ↔ (∀ y ∈ done, keeps p.settings o y.1 = false) ∧ numbered = false) := by
  obtain ⟨done, x, rest, next, numbered, hsplit, hnext, hfails, hafter⟩ :=
    run_buildElements_eq_error h
  rw [PrbMap.size, zipIdx_drop_take] at hsplit
  refine ⟨done, x, rest, next, numbered, hsplit, hnext, hfails, hafter, ?_⟩
  rw [hafter.untouched_iff, List.filterMap_eq_nil_iff]
  simp only [← Option.isNone_iff_eq_none, ← Option.isSome_eq_false_iff, isSome_recordFor?]

/-! ## A beam that cannot be written -/

namespace BadBeam

/-- A producer for paired spectrum. -/
def producer : Producer where
  settings :=
    { mu := .khz30, tagging := .untagged, framer := {}, frame := .fdd .khz30, mtu := 1500 }
  store := ⟨1, 1, 66, Vector.replicate _ (.blank 66)⟩

/-- An element that can be written, and one with a beam of sixteen bits. -/
def map : PrbMap where
  direction := .dl
  elements :=
    [{ startPrb := 0, numPrb := 10 }, { startPrb := 10, numPrb := 10, beam := 32768 }]

/-- The order for the first slot. -/
def order : Order :=
  ⟨⟨.dl, 0, 0⟩, 0, .a, 0⟩

/-- The producer when it has failed on the map. -/
def stopped : Producer :=
  ((buildRange order map (0, 2)).run producer).2

lemma exists_error : ∃ err, (buildRange order map (0, 2)).run producer = (.error err, stopped) := by
  have hfail : ((buildRange order map (0, 2)).run producer).1.isOk = false := by decide +kernel
  obtain ⟨err, after, hrun⟩ := exists_run_eq_error hfail
  refine ⟨err, ?_⟩
  rw [stopped, hrun]

lemma counts_stopped : stopped.counts = ⟨1, 1, 0⟩ := by decide +kernel

/-- It is the second element that fails, since the first one is counted. -/
theorem buildRange_error_traces_map :
    ∃ err x next numbered, (buildRange order map (0, 2)).run producer = (.error err, stopped) ∧
      map.elements.zipIdx = [({ startPrb := 0, numPrb := 10 }, 0), x] ∧
      Fails next order x err numbered := by
  obtain ⟨err, hrun⟩ := exists_error
  obtain ⟨done, x, rest, next, numbered, hsplit, -, hfails, htraces, -⟩ :=
    buildRange_error_traces hrun
  have hpackets : 1 = 0 + (done.filterMap (recordFor? producer.settings order)).length := by
    have := htraces.packets
    rwa [counts_stopped] at this
  have hall : map.elements.zipIdx = done ++ x :: rest := hsplit
  refine ⟨err, x, next, numbered, hrun, ?_, hfails⟩
  rcases done with _ | ⟨first, _ | ⟨second, done⟩⟩
  · cases hpackets
  · cases hall
    rfl
  · -- two elements in front of it would be the whole map
    have hlength := congrArg List.length hall
    rw [List.length_append] at hlength
    simp [map] at hlength
    omega

/-- A failure leaves the section of the element in front of it behind, and its number and its
counts: the flow goes on with the next number. -/
theorem buildRange_leaves_section :
    PrbMap.create .dl map.elements = .ok map ∧
      ∃ err, (buildRange order map (0, 2)).run producer = (.error err, stopped) ∧
        stopped.store.entries order.key = [elementSection { startPrb := 0, numPrb := 10 } 0 0 14] ∧
        stopped.nextSequence order.flow = 1 ∧ stopped.counts = ⟨1, 1, 0⟩ ∧
        ¬Untouched producer stopped := by
  obtain ⟨err, hrun⟩ := exists_error
  refine ⟨rfl, err, hrun, by decide +kernel, ?_, counts_stopped, fun hsame => ?_⟩
  · have hsequence : stopped.nextSequence order.flow =
        (producer.tookNumber order.flow {}).nextSequence order.flow := rfl
    have hfirst : producer.nextSequence order.flow = 0 := Std.HashMap.getD_empty
    rw [hsequence, nextSequence_tookNumber, if_pos rfl, hfirst]
    rfl
  · have hpackets := hsame.packets
    rw [counts_stopped] at hpackets
    cases hpackets

end BadBeam

end Producer

end OpenFronthaul
