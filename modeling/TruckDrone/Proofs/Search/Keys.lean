import TruckDrone.Proofs.Neighborhood.EdgeOrder
import TruckDrone.Proofs.Neighborhood.Relocation
import TruckDrone.Proofs.Neighborhood.Reversal
import TruckDrone.Proofs.Neighborhood.TailExchange
import TruckDrone.Proofs.Search.Words

/-! The keys of the moves that are listed for a search. A key names the exploration that found the
move and either the edge or a digest of the plan. Only relocations have no edge, so moves share a
key just if the same exploration found them, with the same edge or else with the same plan. -/

set_option autoImplicit false

namespace TruckDrone

open Exploration

variable {K : Type}

namespace Move

inductive Entry where
  | reversals
  | tailExchanges
  | relocations
  deriving DecidableEq, Repr

namespace Entry

def label : Entry → String
  | .reversals => "2opt"
  | .tailExchanges => "2opt*"
  | .relocations => "ejection"

/-- What stands between the label and the rest of a key. -/
def mark : Entry → Char
  | .relocations => '#'
  | .reversals | .tailExchanges => ':'

def sweep (problem : Problem K) (solution : Solution K) : Entry → Sweep (Offer K)
  | .reversals => TwoOpt.reversals problem solution
  | .tailExchanges => TwoOpt.tailExchanges problem solution
  | .relocations => EjectionChain.relocations problem solution

def all : List Entry := [.reversals, .tailExchanges, .relocations]

theorem label_injective : Function.Injective label := by
  intro first second
  cases first <;> cases second <;> decide

theorem sweeps_eq (problem : Problem K) (solution : Solution K) :
    sweeps problem solution = all.map fun entry => (entry.label, entry.sweep problem solution) :=
  rfl

end Entry

/-! What the explorations find. -/

structure Finding (K : Type) where
  entry : Entry
  offer : Offer K

namespace Finding

def plan (finding : Finding K) : Plan := finding.offer.candidate.plan

/-- The same exploration, with the same edge in no order, or the same plan for a relocation. -/
def Same (finding other : Finding K) : Prop :=
  finding.entry = other.entry ∧
    if finding.entry = .relocations then finding.plan = other.plan
    else finding.offer.edge.ends = other.offer.edge.ends

end Finding

def keyBy (digest : List Nat → String) (label : String) (edge : Edge) (plan : Plan) : String :=
  if edge.isTrivial then label ++ "#" ++ digest plan.words else label ++ ":" ++ edge.text

def Finding.toMove (digest : List Nat → String) (finding : Finding K) : Move K :=
  ⟨keyBy digest finding.entry.label finding.offer.edge finding.plan, finding.offer.candidate,
    finding.offer.candidate.cost⟩

section Listing

variable [Scalar K] (problem : Problem K) (solution : Solution K)

def explored (entry : Entry) : Except Fault (Option (Finding K)) := do
  let outcome ← (entry.sweep problem solution).explore (fun _ _ => false) 0
  return outcome.solution.map fun candidate => ⟨entry, ⟨candidate, outcome.edge⟩⟩

def findings : Except Fault (List (Finding K)) := do
  let outcomes ← Entry.all.mapM (explored problem solution)
  return outcomes.filterMap id

def bestBy (digest : List Nat → String) (label : String) (sweep : Sweep (Offer K)) :
    Except Fault (Option (Move K)) := do
  let outcome ← sweep.explore (fun _ _ => false) 0
  return outcome.solution.map fun candidate =>
    ⟨keyBy digest label outcome.edge candidate.plan, candidate, candidate.cost⟩

def neighborsBy (digest : List Nat → String) : Except Fault (List (Move K)) := do
  let outcomes ← (sweeps problem solution).mapM fun (label, sweep) => bestBy digest label sweep
  return outcomes.filterMap id

theorem neighbors_eq_dotted : neighbors problem solution = neighborsBy problem solution dotted :=
  rfl

theorem bestBy_eq (digest : List Nat → String) (entry : Entry) :
    bestBy digest entry.label (entry.sweep problem solution) =
      Option.map (Finding.toMove digest) <$> explored problem solution entry := by
  rw [bestBy, explored]
  cases (entry.sweep problem solution).explore (fun _ _ => false) 0 with
  | error fault => rfl
  | ok outcome =>
    refine congrArg Except.ok ?_
    rw [Option.map_map]
    rfl

theorem neighborsBy_eq (digest : List Nat → String) : neighborsBy problem solution digest =
    List.map (Finding.toMove digest) <$> findings problem solution := by
  have listed : ((sweeps problem solution).mapM fun (label, sweep) => bestBy digest label sweep) =
      List.map (Option.map (Finding.toMove digest)) <$>
        Entry.all.mapM (explored problem solution) := by
    rw [Entry.sweeps_eq, List.mapM_map, ← Fault.mapM_map_result]
    exact congrArg (Entry.all.mapM ·) (funext (bestBy_eq problem solution digest))
  rw [neighborsBy, listed, findings]
  cases Entry.all.mapM (explored problem solution) with
  | error fault => rfl
  | ok outcomes =>
    refine congrArg Except.ok ?_
    rw [List.filterMap_map, List.map_filterMap]
    rfl

end Listing

section Found

variable {problem : Problem K} {solution : Solution K}

theorem offer_mem_of_found [Scalar K] {found : List (Finding K)} {finding : Finding K}
    (listed : findings problem solution = .ok found) (member : finding ∈ found) :
    finding.offer ∈ (finding.entry.sweep problem solution).items := by
  obtain ⟨outcomes, run, packed⟩ := Fault.bind_eq_ok.1 listed
  cases packed
  obtain ⟨_, inOutcomes, rfl⟩ := List.mem_filterMap.1 member
  obtain ⟨entry, -, here⟩ := Fault.exists_of_mapM run inOutcomes
  obtain ⟨outcome, scanned, packed⟩ := Fault.bind_eq_ok.1 here
  obtain ⟨candidate, chosen, rfl⟩ := Option.map_eq_some_iff.1 (Except.ok.inj packed)
  refine mem_of_scan (Eq.trans (Sweep.eq_scan_of_explore scanned).symm ?_)
  rw [← chosen]

/-- An edge has its smaller end first, only relocations have none, and the candidate is a plan at
its price. -/
theorem shape_of_mem_sweep {entry : Entry} {offer : Offer K}
    (member : offer ∈ (entry.sweep problem solution).items) :
    offer.edge.Ordered ∧ (offer.edge = .trivial ↔ entry = .relocations) ∧
      offer.candidate = problem.assess offer.candidate.plan := by
  cases entry with
  | reversals =>
    obtain ⟨move, inAll, yields⟩ := (Reversal.lists_all problem solution).exists_of_mem member
    have proper := yields.edge_ne_trivial (Reversal.mem_all.1 inAll)
    obtain ⟨_, _, -, -, candidate, start, finish, -, -, edge⟩ := yields
    rw [candidate]
    exact ⟨edge ▸ Edge.ordered_between start finish, iff_of_false proper nofun, rfl⟩
  | tailExchanges =>
    obtain ⟨move, -, yields⟩ := (TailExchange.lists_all problem solution).exists_of_mem member
    have proper := yields.edge_ne_trivial
    obtain ⟨_, _, _, _, -, -, -, -, -, -, candidate, a, b, -, -, edge⟩ := yields
    rw [candidate]
    exact ⟨edge ▸ Edge.ordered_between a b, iff_of_false proper nofun, rfl⟩
  | relocations =>
    obtain ⟨chain, -, yields⟩ := (Chain.lists_all problem solution).exists_of_mem member
    obtain ⟨_, _, _, _, _, _, _, _, -, -, -, -, -, -, -, -, -, -, candidate, trivial⟩ := yields
    rw [candidate]
    exact ⟨trivial ▸ Nat.le_refl 0, iff_of_true trivial rfl, rfl⟩

end Found

/-! Keys. -/

def Finding.rest (digest : List Nat → String) (finding : Finding K) : String :=
  if finding.entry = .relocations then digest finding.plan.words else finding.offer.edge.text

section Key

variable {digest : List Nat → String} {finding other : Finding K}

theorem key_eq (keyed : finding.offer.edge = .trivial ↔ finding.entry = .relocations) :
    (finding.toMove digest).key =
      finding.entry.label ++ .singleton finding.entry.mark ++ finding.rest digest := by
  obtain ⟨entry, offer⟩ := finding
  rw [Finding.toMove, keyBy, Finding.rest]
  simp only [Edge.isTrivial_iff, keyed]
  cases entry <;> rfl

theorem Entry.takeWhile_label (entry : Entry) (rest : List Char) :
    (entry.label.toList ++ entry.mark :: rest).takeWhile (· ∉ [':', '#']) =
      entry.label.toList := by
  have free : entry.label.toList.all (· ∉ [':', '#']) = true := by
    cases entry <;> rfl
  rw [List.takeWhile_append_of_pos (List.all_eq_true.1 free)]
  cases entry <;> exact List.append_nil _

theorem key_eq_iff (keyed : finding.offer.edge = .trivial ↔ finding.entry = .relocations)
    (keyedToo : other.offer.edge = .trivial ↔ other.entry = .relocations) :
    (finding.toMove digest).key = (other.toMove digest).key ↔
      finding.entry = other.entry ∧ finding.rest digest = other.rest digest := by
  rw [key_eq keyed, key_eq keyedToo]
  constructor
  · intro same
    have written := congrArg String.toList same
    simp only [String.toList_append, String.toList_singleton, List.append_assoc,
      List.singleton_append] at written
    -- No label has a mark in it, so the labels are what stands before the first mark.
    have label := congrArg (List.takeWhile (· ∉ [':', '#'])) written
    rw [Entry.takeWhile_label, Entry.takeWhile_label] at label
    have entry := Entry.label_injective (String.toList_inj.1 label)
    rw [entry] at written
    exact ⟨entry, String.toList_inj.1 (List.cons.inj (List.append_cancel_left written)).2⟩
  · rintro ⟨entry, rest⟩
    rw [entry, rest]

/-- Edges are told apart by their texts, and plans by a digest that is not the same for both. -/
theorem rest_eq_iff (entry : finding.entry = other.entry)
    (separates : digest finding.plan.words = digest other.plan.words →
      finding.plan.words = other.plan.words)
    (ordered : finding.offer.edge.Ordered) (orderedToo : other.offer.edge.Ordered) :
    finding.rest digest = other.rest digest ↔
      if finding.entry = .relocations then finding.plan = other.plan
      else finding.offer.edge.ends = other.offer.edge.ends := by
  rw [Finding.rest, Finding.rest, ← entry]
  split
  · constructor
    · exact fun same => Plan.words_injective (separates same)
    · exact fun same => by rw [same]
  · rw [Edge.text_injective.eq_iff, Edge.eq_iff_ends]
    exact and_iff_left (iff_of_true ordered orderedToo)

end Key

/-- The moves listed for a search are what the three explorations found, in their order, under keys
that may be made with any digest of the plans. Two of them, from any two solutions, have the same
key just if they come from the same exploration, with the same edge in no order or, if it relocates,
to the same plan; for that a hash must tell these two plans apart, and the dotted words always do.
A key is that of an edge unless the move relocates, and the cost is that of the solution. -/
theorem keys_identify [Scalar K] (problem : Problem K) :
    (∀ solution, neighbors problem solution = neighborsBy problem solution dotted) ∧
    (∀ digest solution, neighborsBy problem solution digest =
      List.map (Finding.toMove digest) <$> findings problem solution) ∧
    ∀ first second found others,
      findings problem first = .ok found → findings problem second = .ok others →
      ∀ a ∈ found, ∀ b ∈ others,
        (∀ hash : List Nat → UInt64,
          (hash a.plan.words = hash b.plan.words → a.plan.words = b.plan.words) →
            ((a.toMove (stamp hash)).key = (b.toMove (stamp hash)).key ↔ a.Same b)) ∧
        ((a.toMove dotted).key = (b.toMove dotted).key ↔ a.Same b) ∧
        ∀ digest, let move := a.toMove digest
          (a.entry = .relocations → move.key = "ejection#" ++ digest move.solution.plan.words) ∧
          (a.entry ≠ .relocations → move.key = a.entry.label ++ ":" ++ a.offer.edge.text) ∧
          move.cost = move.solution.cost ∧
          move.solution = problem.assess move.solution.plan := by
  refine ⟨neighbors_eq_dotted problem,
    fun digest solution => neighborsBy_eq problem solution digest, ?_⟩
  intro first second found others listed listedToo a inFound b inOthers
  obtain ⟨ordered, keyed, candidate⟩ := shape_of_mem_sweep (offer_mem_of_found listed inFound)
  obtain ⟨orderedToo, keyedToo, -⟩ := shape_of_mem_sweep (offer_mem_of_found listedToo inOthers)
  have identify {digest : List Nat → String}
      (separates : digest a.plan.words = digest b.plan.words → a.plan.words = b.plan.words) :
      (a.toMove digest).key = (b.toMove digest).key ↔ a.Same b :=
    (key_eq_iff keyed keyedToo).trans
      (and_congr_right fun entry => rest_eq_iff entry separates ordered orderedToo)
  refine ⟨fun hash separates => identify fun same => separates (stamp_eq_iff.1 same),
    identify fun same => dotted_injective same, fun digest => ⟨?_, ?_, rfl, candidate⟩⟩
  · intro relocates
    rw [key_eq keyed, Finding.rest, if_pos relocates, relocates]
    rfl
  · intro keeps
    rw [key_eq keyed, Finding.rest, if_neg keeps]
    cases entry : a.entry with
    | relocations => exact absurd entry keeps
    | reversals | tailExchanges => rfl

/-- From two solutions the best reversals have the same edge and the relocations lead to the same
plan. The hash tells the plans of the reversals apart, and yet their keys are the same. -/
theorem keys_identify_three_trucks :
    let target : Plan := ⟨[[.truck [2]], [.truck [1]], [.truck [3, 4]]], []⟩
    let problem : Problem Binary64 :=
      ⟨[.depot 0 0, ⟨1, 0, 1, false⟩, ⟨2, 1, 0, true⟩, ⟨3, 1, 1, true⟩, ⟨4, 0, 0, true⟩], 3, 0, 0,
        fun plan => if plan = target then 0 else 1⟩
    let first := problem.assess ⟨[[.truck [1, 2]], [.truck [3]], [.truck [4]]], []⟩
    let second := problem.assess ⟨[[.truck [3]], [.truck [1, 2]], [.truck [4]]], []⟩
    let hash (words : List Nat) : UInt64 :=
      words.foldl (fun sum word => 31 * sum + .ofNat word) 7
    ∃ a b c d, findings problem first = .ok [a, b] ∧ findings problem second = .ok [c, d] ∧
      hash a.plan.words ≠ hash c.plan.words ∧
      (a.toMove (stamp hash)).key = (c.toMove (stamp hash)).key ∧
      (b.toMove (stamp hash)).key = (d.toMove (stamp hash)).key ∧
      (a.toMove dotted).key ≠ (d.toMove dotted).key ∧
      (a.toMove (stamp hash)).key = "2opt:0-2" ∧
      (b.toMove (stamp hash)).key = "ejection#" ++ stamp hash target.words := by
  intro target problem first second hash
  let shown (finding : Finding Binary64) := (finding.entry, finding.offer.edge, finding.plan)
  have one : List.map shown <$> findings problem first = .ok
      [(.reversals, ⟨0, 2⟩, ⟨[[.truck [2, 1]], [.truck [3]], [.truck [4]]], []⟩),
        (.relocations, .trivial, target)] := by decide +kernel
  have two : List.map shown <$> findings problem second = .ok
      [(.reversals, ⟨0, 2⟩, ⟨[[.truck [3]], [.truck [2, 1]], [.truck [4]]], []⟩),
        (.relocations, .trivial, target)] := by decide +kernel
  obtain ⟨found, listed, found_eq⟩ := Fault.map_eq_ok.1 one
  obtain ⟨others, listedToo, others_eq⟩ := Fault.map_eq_ok.1 two
  simp only [List.map_eq_cons_iff, List.map_eq_nil_iff, shown, Prod.mk.injEq] at found_eq others_eq
  obtain ⟨a, _, rfl, ⟨entryA, edgeA, planA⟩, b, _, rfl, ⟨entryB, edgeB, planB⟩, rfl⟩ := found_eq
  obtain ⟨c, _, rfl, ⟨entryC, edgeC, planC⟩, d, _, rfl, ⟨entryD, edgeD, planD⟩, rfl⟩ := others_eq
  obtain ⟨-, -, keys⟩ := keys_identify problem
  have keys := keys first second _ _ listed listedToo
  have apart : hash a.plan.words ≠ hash c.plan.words := by
    rw [planA, planC]
    decide +kernel
  have edged : a.entry ≠ .relocations := by
    rw [entryA]
    decide
  have same : a.Same c := ⟨entryA.trans entryC.symm, by rw [if_neg edged, edgeA, edgeC]⟩
  have sameToo : b.Same d := ⟨entryB.trans entryD.symm, by rw [if_pos entryB, planB, planD]⟩
  have reversed := ((keys a (by simp) c (by simp)).1 hash fun same => absurd same apart).2 same
  have relocated := ((keys b (by simp) d (by simp)).1 hash fun _ => by rw [planB, planD]).2 sameToo
  have mixed : (a.toMove dotted).key ≠ (d.toMove dotted).key := by
    intro key
    have entry := ((keys a (by simp) d (by simp)).2.1.1 key).1
    rw [entryA, entryD] at entry
    cases entry
  have keyed : (a.toMove (stamp hash)).key = "2opt:0-2" := by
    rw [((keys a (by simp) c (by simp)).2.2 _).2.1 edged, entryA, edgeA]
    decide +kernel
  have stamped : (b.toMove (stamp hash)).key = "ejection#" ++ stamp hash target.words := by
    rw [((keys b (by simp) d (by simp)).2.2 _).1 entryB]
    exact congrArg (fun plan : Plan => "ejection#" ++ stamp hash plan.words) planB
  exact ⟨a, b, c, d, listed, listedToo, apart, reversed, relocated, mixed, keyed, stamped⟩

end Move

end TruckDrone
