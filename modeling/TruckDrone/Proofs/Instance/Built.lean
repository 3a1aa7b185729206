import TruckDrone.Instance

/-! Instances that can be obtained: those that the constructor accepts, after any changes. What
the constructor asks of the locations and the fleet, no change takes back. -/

set_option autoImplicit false

namespace TruckDrone.Instance

variable {K : Type} [Scalar K]

inductive Built : Instance K → Prop where
  | opened (customers : List (Customer K)) (trucks drones : Nat) {inst : Instance K}
      (accepted : ofCustomers? customers trucks drones = some inst) : Built inst
  | changed (change : Change K) {before after : Instance K} (built : Built before)
      (accepted : before.change? change = some after) : Built after

/-- The locations are numbered in order, the depot first, and the fleet reaches all of them. The
table covers just the locations. A speed is the initial one or was admitted. -/
structure Coherent (inst : Instance K) : Prop where
  numbered : ∀ (position : Nat) (inside : position < inst.customers.length),
    inst.customers[position].id = position
  depot : ∃ depot others, inst.customers = depot :: others ∧ depot.dronable = false
  vehicles : 0 < inst.trucks + inst.drones
  reached : inst.trucks = 0 → ∀ customer ∈ inst.customers.tail, customer.dronable = true
  table : inst.distances.size = inst.customers.length
  speeds : ∀ kind, inst.speed kind = 1 ∨
    (Scalar.isFinite (inst.speed kind) && Scalar.less 0 (inst.speed kind)) = true

theorem coherent_of_accepted {customers : List (Customer K)} {trucks drones : Nat}
    {inst : Instance K} (accepted : ofCustomers? customers trucks drones = some inst) :
    inst.Coherent := by
  unfold ofCustomers? at accepted
  split at accepted
  · cases accepted
  next depot others =>
    simp only [Option.ite_none_left_eq_some, Option.some.injEq] at accepted
    obtain ⟨depotFirst, numbered, vehicles, reached, rfl⟩ := accepted
    constructor
    case numbered =>
      intro position inside
      simp only [List.any_eq_true, not_exists, not_and] at numbered
      have here := numbered _ (List.mk_mem_zipIdx_iff_getElem?.2 (List.getElem?_eq_getElem inside))
      simpa using here
    case depot => exact ⟨depot, others, rfl, by simpa using (not_or.1 depotFirst).2⟩
    case vehicles => exact Nat.pos_of_ne_zero vehicles
    case reached =>
      intro none customer member
      simp only [List.any_eq_true, not_and, not_exists] at reached
      simpa using reached none customer member
    case table => rfl
    case speeds =>
      intro kind
      cases kind <;> exact .inl rfl

theorem Coherent.setSpeed {inst : Instance K} (coherent : inst.Coherent) (kind : VehicleKind)
    (speed : K) : (inst.setSpeed kind speed).Coherent := by
  unfold Instance.setSpeed
  split
  next admitted =>
    cases kind with
    | truck =>
      refine { coherent with speeds := fun other => ?_ }
      cases other with
      | truck => exact .inr admitted
      | drone => exact coherent.speeds .drone
    | drone =>
      refine { coherent with speeds := fun other => ?_ }
      cases other with
      | truck => exact coherent.speeds .truck
      | drone => exact .inr admitted
  · exact coherent

theorem Coherent.change {inst after : Instance K} (coherent : inst.Coherent) {change : Change K}
    (accepted : inst.change? change = some after) : after.Coherent := by
  cases change with
  | recency capacity =>
    cases accepted
    exact { coherent with }
  | speed kind speed =>
    cases accepted
    exact coherent.setSpeed kind speed
  | objective objective =>
    cases accepted
    exact { coherent with }
  | distances table =>
    obtain ⟨square, same⟩ := Option.ite_none_right_eq_some.1 accepted
    cases same
    exact { coherent with table := square }

theorem Built.coherent {inst : Instance K} (built : inst.Built) : inst.Coherent := by
  induction built with
  | opened _ _ _ accepted => exact coherent_of_accepted accepted
  | changed _ _ accepted coherent => exact coherent.change accepted

theorem Coherent.depot_inside {inst : Instance K} (coherent : inst.Coherent) :
    depotId < inst.customers.length := by
  obtain ⟨depot, others, locations, -⟩ := coherent.depot
  rw [locations]
  exact Nat.succ_pos _

end TruckDrone.Instance
