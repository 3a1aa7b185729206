import TruckDrone.Construction.RandomDeal
import TruckDrone.Proofs.Construction.Tours
import TruckDrone.Proofs.Random.Lawful

/-! Dealing customers out at random. With a lawful source it always ends, in a solution that
serves the problem if there is one at all. -/

set_option autoImplicit false

namespace TruckDrone

variable {K σ : Type} {problem : Problem K}

namespace RandomDeal

variable [RandomSource σ]

theorem vehicles_deal {order : List Nat} {tours dealt : Tours} {source left : σ}
    (done : deal problem order tours source = .ok (dealt, left)) :
    dealt.map Prod.fst = tours.map Prod.fst := by
  induction order generalizing tours source with
  | nil => cases done; rfl
  | cons id rest ih =>
    obtain ⟨vehicles, -, done⟩ := Fault.bind_eq_ok.1 done
    obtain ⟨vehicle, -, done⟩ := Fault.bind_eq_ok.1 done
    obtain ⟨extended, grown, done⟩ := Fault.bind_eq_ok.1 done
    exact (ih done).trans (Tours.vehicles_extend grown)

theorem length_routes_construct {source left : σ} {solution : Solution K}
    (made : construct problem source = .ok (some solution, left)) (vehicle : Vehicle) :
    (solution.plan.routes vehicle).length ≤ 1 := by
  unfold construct at made
  split at made
  · obtain ⟨⟨tours, _⟩, dealt, made⟩ := Fault.bind_eq_ok.1 made
    obtain ⟨first, solved, made⟩ := Fault.bind_eq_ok.1 made
    cases made
    have vehicles := (vehicles_deal dealt).trans (Tours.idle_deals problem).vehicles
    exact Tours.length_routes_toSolution vehicles solved vehicle
  · cases made

variable [LawfulRandomSource σ]

/-- Each customer in turn finds a vehicle, so that the tours deal out the order as it comes. -/
theorem deal_eq_ok (served : problem.servable = true) {order ids : List Nat}
    (customers : ∀ id ∈ order, id ∈ problem.customerIds) {tours : Tours}
    (deals : tours.Deals problem ids) (source : σ) :
    ∃ dealt left, deal problem order tours source = .ok (dealt, left) ∧
      dealt.Deals problem (ids ++ order) := by
  induction order generalizing tours ids source with
  | nil => exact ⟨tours, source, rfl, (List.append_nil ids).symm ▸ deals⟩
  | cons id rest ih =>
    obtain ⟨customer, others⟩ := List.forall_mem_cons.1 customers
    obtain ⟨carrier, inFleet, suits⟩ := Problem.exists_carrier served customer
    let vehicles := problem.fleet.filter fun vehicle => problem.suits vehicle id
    have someone : 0 < vehicles.length :=
      List.length_pos_of_mem (List.mem_filter.2 ⟨inFleet, suits⟩)
    have inside := LawfulRandomSource.below_lt someone source
    obtain ⟨owned, serves⟩ := List.mem_filter.1 (List.getElem_mem inside)
    obtain ⟨extended, done, dealsOn⟩ := deals.extend owned serves
    obtain ⟨dealt, left, result, final⟩ :=
      ih others dealsOn (RandomSource.below vehicles.length source).2
    refine ⟨dealt, left, ?_, by simpa using final⟩
    rw [deal, Problem.carriers_eq_ok (Problem.mem_customerIds.1 customer).2, Fault.ok_bind]
    dsimp only
    rw [Sequence.entry_eq_ok inside, Fault.ok_bind, done, Fault.ok_bind]
    exact result

theorem construct_eq_ok (served : problem.servable = true) (source : σ) :
    ∃ solution left, construct problem source = .ok (some solution, left) ∧
      solution.plan.Serves problem ∧ solution.cost = problem.price solution.plan := by
  let shuffled := RandomSource.shuffle problem.customerIds source
  have all : shuffled.1.Perm problem.customerIds := LawfulRandomSource.shuffle_perm ..
  obtain ⟨dealt, left, done, deals⟩ :=
    deal_eq_ok served (fun _ => all.mem_iff.1) (Tours.idle_deals problem) shuffled.2
  obtain ⟨solution, made, serves, price⟩ := deals.toSolution all
  refine ⟨solution, left, ?_, serves, price⟩
  rw [construct, if_pos served]
  change (deal problem shuffled.1 (.idle problem) shuffled.2 >>= _) = _
  rw [done, Fault.ok_bind]
  dsimp only
  rw [made]
  rfl

end RandomDeal

end TruckDrone
