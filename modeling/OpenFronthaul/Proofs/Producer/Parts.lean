import OpenFronthaul.Proofs.Producer.Packets
import Mathlib.Tactic

/-!
# Maps in parts

The parts of the work on a map are ranges of elements that follow one another (`Tiles`).  Building
them one after another comes to the same as building the map at once, for the producer takes up each
part where it left the one before (`endsAlike_append`).  Only the accounts of memory can tell the
two apart, and only after a failure: what was built of the map is dropped then, but the packets of
earlier parts are not (`EndsAlike`).
-/

namespace OpenFronthaul

/-! ## Ranges in a row -/

/-- Ranges that follow one another from the first number on, up to before the last. -/
inductive Tiles : ℕ → ℕ → List (ℕ × ℕ) → Prop
  | nil (place : ℕ) : Tiles place place []
  | cons {first next last : ℕ} {ranges : List (ℕ × ℕ)} :
      first ≤ next → Tiles next last ranges → Tiles first last ((first, next) :: ranges)

/-- The numbers of a range, without its end. -/
def rangeNumbers (range : ℕ × ℕ) : List ℕ :=
  List.range' range.1 (range.2 - range.1)

namespace Tiles

variable {first next last : ℕ} {ranges : List (ℕ × ℕ)}

lemma le (h : Tiles first last ranges) : first ≤ last := by
  induction h with
  | nil place => exact le_rfl
  | cons hle _ ih => exact hle.trans ih

lemma concat (h : Tiles first next ranges) (hle : next ≤ last) :
    Tiles first last (ranges ++ [(next, last)]) := by
  induction h with
  | nil place => exact .cons hle (.nil last)
  | cons hfirst _ ih => exact .cons hfirst (ih hle)

/-- Each number is in one of the ranges and in one only, and in order. -/
lemma flatMap_rangeNumbers (h : Tiles first last ranges) :
    ranges.flatMap rangeNumbers = rangeNumbers (first, last) := by
  induction h with
  | nil place => simp [rangeNumbers]
  | @cons first next last ranges hle hrest ih =>
    have hlast := hrest.le
    have hnext : first + (next - first) = next := by omega
    have hlength : next - first + (last - next) = last - first := by omega
    have happend : List.range' first (next - first) ++
        List.range' (first + (next - first)) (last - next) =
          List.range' first (next - first + (last - next)) := List.range'_append_1
    rw [hnext, hlength] at happend
    rw [List.flatMap_cons, ih]
    exact happend

end Tiles

namespace PrbMap

/-- The ranges of the parts of a map. -/
def partRanges (map : PrbMap) (parts : ℕ) : List (ℕ × ℕ) :=
  (List.range parts).map fun part => map.partRange part parts

lemma partRange_of_lt (map : PrbMap) {part parts : ℕ} (h : part < parts) :
    map.partRange part parts = (map.size * part / parts, map.size * (part + 1) / parts) := by
  have hparts : max parts 1 = parts := by omega
  have hpart : min part (parts - 1) = part := by omega
  rw [partRange, hparts, hpart]

/-- The first parts take up a share of the map. -/
lemma tiles_range (map : PrbMap) {count parts : ℕ} (h : count ≤ parts) :
    Tiles 0 (map.size * count / parts)
      ((List.range count).map fun part => map.partRange part parts) := by
  induction count with
  | zero =>
    rw [Nat.mul_zero, Nat.zero_div]
    exact .nil 0
  | succ count ih =>
    rw [List.range_succ, List.map_append, List.map_singleton, partRange_of_lt map h]
    refine (ih (Nat.le_of_succ_le h)).concat ?_
    exact Nat.div_le_div_right (Nat.mul_le_mul_left _ (Nat.le_succ count))

lemma tiles_partRanges (map : PrbMap) {parts : ℕ} (h : 1 ≤ parts) :
    Tiles 0 map.size (map.partRanges parts) := by
  have htiles := map.tiles_range (le_refl parts)
  rwa [Nat.mul_div_cancel _ h] at htiles

end PrbMap

namespace Producer

/-! ## Builds that end alike -/

/-- What a build comes to, and the producer afterwards. -/
abbrev Outcome := Except Error (List Packet) × Producer

/-- Two builds end alike: with the same packets and the same producer, or with the same failure and
producers that differ in the accounts of memory alone. -/
inductive EndsAlike : Outcome → Outcome → Prop
  | ok (packets : List Packet) (after : Producer) :
      EndsAlike (.ok packets, after) (.ok packets, after)
  | error (e : Error) (after : Producer) (memory : Memory) :
      EndsAlike (.error e, { after with memory }) (.error e, after)

namespace EndsAlike

variable {x y z : Outcome}

lemma refl (x : Outcome) : EndsAlike x x := by
  obtain ⟨e | packets, after⟩ := x
  · exact .error e after after.memory
  · exact .ok packets after

lemma trans (hxy : EndsAlike x y) (hyz : EndsAlike y z) : EndsAlike x z := by
  cases hyz with
  | ok packets after => exact hxy
  | error e after memory =>
    cases hxy with
    | error e _ memory' => exact .error e after memory'

lemma eq_ok_iff (h : EndsAlike x y) {packets : List Packet} {after : Producer} :
    x = (.ok packets, after) ↔ y = (.ok packets, after) := by
  cases h with
  | ok packets after => exact Iff.rfl
  | error e after memory => exact ⟨nofun, nofun⟩

lemma eq_error {e : Error} {after : Producer} (h : EndsAlike x (.error e, after)) :
    ∃ memory, x = (.error e, { after with memory }) := by
  cases h with
  | error e after memory => exact ⟨memory, rfl⟩

end EndsAlike

/-! ## More in front and more behind -/

/-- An outcome behind the packet of an element, which is dropped after a failure. -/
def behind (packet? : Option Packet) : Outcome → Outcome
  | (.ok packets, after) => (.ok (packet?.toList ++ packets), after)
  | (.error e, after) => (.error e, { after with memory := after.memory.dropAll packet?.toList })

/-- An outcome that more is built behind. -/
def followedBy (back : Step (List Packet)) : Outcome → Outcome
  | (.ok packets, next) =>
    match back.run next with
    | (.ok more, after) => (.ok (packets ++ more), after)
    | (.error e, after) => (.error e, after)
  | (.error e, after) => (.error e, after)

lemma EndsAlike.behind {x y : Outcome} (h : EndsAlike x y) (packet? : Option Packet) :
    EndsAlike (behind packet? x) (behind packet? y) := by
  cases h with
  | ok packets after => exact .refl _
  | error e after memory =>
    exact .error e { after with memory := after.memory.dropAll packet?.toList } _

lemma endsAlike_followedBy {back other : Step (List Packet)}
    (h : ∀ p, EndsAlike (back.run p) (other.run p)) (x : Outcome) :
    EndsAlike (followedBy back x) (followedBy other x) := by
  obtain ⟨e | packets, next⟩ := x
  · exact .refl _
  have hnext := h next
  rw [followedBy, followedBy]
  generalize back.run next = left at hnext
  generalize other.run next = right at hnext
  cases hnext with
  | ok more after => exact .refl _
  | error e after memory => exact .error e after memory

/-- A packet in front and what is built behind do not interfere, but after a failure of the latter
the packet is dropped or is not. -/
lemma endsAlike_behind_followedBy (packet? : Option Packet) (back : Step (List Packet))
    (x : Outcome) :
    EndsAlike (behind packet? (followedBy back x)) (followedBy back (behind packet? x)) := by
  obtain ⟨e | packets, next⟩ := x
  · exact .refl _
  rw [behind, followedBy, followedBy]
  rcases back.run next with ⟨e | more, after⟩
  · exact .error e after _
  · dsimp only [behind]
    rw [List.append_assoc]
    exact .refl _

lemma run_buildElements_cons_behind (o : Order) (index : ℕ) (e : PrbElement)
    (elements : List PrbElement) (p : Producer) :
    (buildElements o index (e :: elements)).run p =
      match (buildElement o index e).run p with
      | (.error err, next) => (.error err, next)
      | (.ok packet?, next) =>
        behind packet? ((buildElements o (index + 1) elements).run next) := by
  rw [run_buildElements_cons]
  rcases (buildElement o index e).run p with ⟨err | packet?, next⟩
  · rfl
  dsimp only
  rcases (buildElements o (index + 1) elements).run next with ⟨err | packets, last⟩
  · rfl
  · rfl

/-- The elements of a list can be built in two parts. -/
lemma endsAlike_append (o : Order) (index : ℕ) (front back : List PrbElement) (p : Producer) :
    EndsAlike ((buildElements o index (front ++ back)).run p)
      (followedBy (buildElements o (index + front.length) back)
        ((buildElements o index front).run p)) := by
  induction front generalizing index p with
  | nil =>
    have hnil : (buildElements o index []).run p = (.ok [], p) := rfl
    rw [hnil, followedBy, List.nil_append, List.length_nil, Nat.add_zero]
    rcases (buildElements o index back).run p with ⟨e | packets, next⟩
    · exact .refl _
    · exact .refl _
  | cons e front ih =>
    rw [List.cons_append, run_buildElements_cons_behind, run_buildElements_cons_behind]
    rcases (buildElement o index e).run p with ⟨err | packet?, next⟩
    · exact .refl _
    have hrest := ih (index + 1) next
    rw [Nat.add_assoc, Nat.add_comm 1] at hrest
    exact (hrest.behind packet?).trans (endsAlike_behind_followedBy packet? _ _)

/-- Build ranges of a map, one after another. -/
def buildRanges (o : Order) (map : PrbMap) (ranges : List (ℕ × ℕ)) : Step (List (List Packet)) :=
  ranges.mapM (buildRange o map)

lemma run_buildRanges_cons (o : Order) (map : PrbMap) (range : ℕ × ℕ) (ranges : List (ℕ × ℕ))
    (p : Producer) :
    (List.flatten <$> buildRanges o map (range :: ranges)).run p =
      followedBy (List.flatten <$> buildRanges o map ranges) ((buildRange o map range).run p) := by
  rw [run_map, buildRanges, List.mapM_cons, run_bind]
  rcases (buildRange o map range).run p with ⟨e | packets, next⟩
  · rfl
  rw [followedBy, run_map, buildRanges]
  dsimp only
  rw [run_bind]
  rcases (ranges.mapM (buildRange o map)).run next with ⟨e | built, last⟩
  · rfl
  · rfl

section Ranges

variable {map : PrbMap} {first next last : ℕ} {ranges : List (ℕ × ℕ)}

/-- The elements of a range are those of its first part and those of the rest. -/
lemma endsAlike_range (hfirst : first ≤ next) (hnext : next ≤ last) (hlast : last ≤ map.size)
    (o : Order) (p : Producer) :
    EndsAlike ((buildRange o map (first, last)).run p)
      (followedBy (buildRange o map (next, last)) ((buildRange o map (first, next)).run p)) := by
  have hsplit : (map.elements.take last).drop first =
      (map.elements.take next).drop first ++ (map.elements.take last).drop next := by
    have htake : map.elements.take next = (map.elements.take last).take next := by
      rw [List.take_take, Nat.min_eq_left hnext]
    have hlength : first ≤ ((map.elements.take last).take next).length := by
      rw [List.length_take, List.length_take, ← PrbMap.size]
      omega
    rw [htake, ← List.drop_append_of_le_length hlength, List.take_append_drop]
  have hplace : min first map.size + ((map.elements.take next).drop first).length =
      min next map.size := by
    rw [List.length_drop, List.length_take, ← PrbMap.size]
    omega
  have halike := endsAlike_append o (min first map.size) ((map.elements.take next).drop first)
    ((map.elements.take last).drop next) p
  rwa [← hsplit, hplace] at halike

/-- A range can be built in parts. -/
lemma endsAlike_ranges (h : Tiles first last ranges) (hlast : last ≤ map.size) (o : Order)
    (p : Producer) :
    EndsAlike ((buildRange o map (first, last)).run p)
      ((List.flatten <$> buildRanges o map ranges).run p) := by
  induction h generalizing p with
  | nil place =>
    have hnone : (map.elements.take place).drop place = [] := by simp
    rw [buildRange, hnone]
    exact .refl _
  | cons hle hrest ih =>
    rw [run_buildRanges_cons]
    exact (endsAlike_range hle hrest.le hlast o p).trans (endsAlike_followedBy (ih hlast) _)

end Ranges

/-- Building a map in parts comes to the same as building it at once. -/
structure BuildsInParts (o : Order) (map : PrbMap) (parts : ℕ) (p : Producer) : Prop where
  /-- The parts follow one another from the first element of the map to behind the last. -/
  tiles : Tiles 0 map.size (map.partRanges parts)
  covers : (map.partRanges parts).flatMap rangeNumbers = List.range map.size
  disjoint : (map.partRanges parts).Pairwise fun range other =>
    List.Disjoint (rangeNumbers range) (rangeNumbers other)
  /-- The map is built when all parts are, with their packets and in the same final state. -/
  eq_ok_iff : ∀ packets after, (buildMap o map).run p = (.ok packets, after) ↔
    ∃ built, (buildRanges o map (map.partRanges parts)).run p = (.ok built, after) ∧
      built.flatten = packets
  /-- When a part fails, so does the map, and only in memory it leaves something else. -/
  of_error : ∀ e after,
    (buildRanges o map (map.partRanges parts)).run p = (.error e, after) →
      ∃ memory, (buildMap o map).run p = (.error e, { after with memory })

/-- It makes no difference whether a map is built in parts, whatever the producer did before. -/
theorem buildMap_inParts {parts : ℕ} (h : 1 ≤ parts) (o : Order) (map : PrbMap) (p : Producer) :
    BuildsInParts o map parts p := by
  have htiles := map.tiles_partRanges h
  have hcovers : (map.partRanges parts).flatMap rangeNumbers = List.range map.size := by
    rw [htiles.flatMap_rangeNumbers, rangeNumbers, Nat.sub_zero, List.range_eq_range']
  have halike := endsAlike_ranges htiles le_rfl o p
  rw [run_map] at halike
  refine ⟨htiles, hcovers, ?_, ?_, ?_⟩
  · have hnodup := List.nodup_range (n := map.size)
    rw [← hcovers, List.nodup_flatMap] at hnodup
    exact hnodup.2
  · intro packets after
    refine halike.eq_ok_iff.trans ?_
    rcases (buildRanges o map (map.partRanges parts)).run p with ⟨e | built, last⟩
    · exact ⟨nofun, nofun⟩
    · constructor
      · rintro ⟨⟩
        exact ⟨built, rfl, rfl⟩
      · rintro ⟨_, ⟨⟩, rfl⟩
        rfl
  · intro e after hparts
    rw [hparts] at halike
    exact halike.eq_error

namespace Halves

/-- A producer for paired spectrum. -/
def producer : Producer where
  settings :=
    { mu := .khz30, tagging := .untagged, framer := {}, frame := .fdd .khz30, mtu := 1500 }
  store := ⟨1, 1, 66, Vector.replicate _ (.blank 66)⟩

/-- A map of three elements. -/
def map : PrbMap where
  direction := .dl
  elements :=
    [{ startPrb := 0, numPrb := 10 }, { startPrb := 10, numPrb := 10 },
      { startPrb := 20, numPrb := 10 }]

/-- The order for the first slot. -/
def order : Order :=
  ⟨⟨.dl, 0, 0⟩, 0, .a, 0⟩

/-- Of three elements the first one makes up the first half of the map. -/
theorem buildMap_inParts_three :
    map.partRanges 2 = [(0, 1), (1, 3)] ∧
      ∃ built after, (buildRanges order map [(0, 1), (1, 3)]).run producer = (.ok built, after) ∧
        built.map List.length = [1, 2] ∧
        (buildMap order map).run producer = (.ok built.flatten, after) := by
  have hparts := buildMap_inParts (by decide : 1 ≤ 2) order map producer
  have hranges : map.partRanges 2 = [(0, 1), (1, 3)] := by decide
  have hlengths : ((buildRanges order map [(0, 1), (1, 3)]).run producer).1.toOption.map
      (List.map List.length) = some [1, 2] := by decide +kernel
  rcases hrun : (buildRanges order map [(0, 1), (1, 3)]).run producer with ⟨e | built, after⟩
  · rw [hrun] at hlengths
    cases hlengths
  · rw [hrun] at hlengths
    rw [← hranges] at hrun
    exact ⟨hranges, built, after, rfl, Option.some.inj hlengths,
      (hparts.eq_ok_iff _ _).mpr ⟨built, hrun, rfl⟩⟩

end Halves

end Producer

end OpenFronthaul
