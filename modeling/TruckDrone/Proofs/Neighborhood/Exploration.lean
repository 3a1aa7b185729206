import Mathlib.Data.List.Induction
import TruckDrone.Neighborhood.Exploration
import TruckDrone.Proofs.Fault
import TruckDrone.Proofs.Neighborhood.Enumeration

/-! What a scan asks and what it can choose. -/

set_option autoImplicit false

namespace TruckDrone

variable {K : Type}

@[simp] theorem Exploration.length_answers (aspiration : Aspiration K) (firstCall : Nat)
    (offers : List (Offer K)) : (answers aspiration firstCall offers).length = offers.length := by
  simp [answers]

variable [Scalar K]

theorem Sweep.explore_of_clean {sweep : Sweep (Offer K)} (clean : sweep.fault = none)
    (aspiration : Aspiration K) (firstCall : Nat) :
    sweep.explore aspiration firstCall = .ok (.scan aspiration firstCall sweep.items) := by
  simp [explore, clean]

theorem Sweep.explore_of_cut {sweep : Sweep (Offer K)} {fault : Fault}
    (cut : sweep.fault = some fault) (aspiration : Aspiration K) (firstCall : Nat) :
    sweep.explore aspiration firstCall = .error fault := by
  simp [explore, cut]

namespace Exploration

theorem exists_of_judge {offers : List (Offer K × Bool)} {chosen : Solution K}
    (result : (judge offers).solution = some chosen) :
    ∃ entry ∈ offers, entry.1.candidate = chosen := by
  have kept : ∀ (rest : List (Offer K × Bool)) (best : Exploration K),
      (rest.foldl (fun best entry => best.consider entry.1 entry.2) best).solution =
        some chosen → best.solution = some chosen ∨ ∃ entry ∈ rest, entry.1.candidate = chosen := by
    -- The best so far runs through the fold, so the claim is about any best to begin with.
    intro rest
    induction rest with
    | nil => exact fun best result => .inl result
    | cons head tail ih =>
      intro best result
      rcases ih _ result with now | ⟨entry, member, same⟩
      · simp only [consider] at now
        split at now
        · exact .inr ⟨head, List.mem_cons_self .., Option.some.inj now⟩
        · exact .inl now
      · exact .inr ⟨entry, List.mem_cons_of_mem _ member, same⟩
  rcases kept offers nothing result with start | found
  · cases start
  · exact found

theorem exists_of_scan {aspiration : Aspiration K} {firstCall : Nat} {offers : List (Offer K)}
    {chosen : Solution K} (result : (scan aspiration firstCall offers).solution = some chosen) :
    ∃ offer ∈ offers, offer.candidate = chosen := by
  obtain ⟨⟨offer, answer⟩, member, same⟩ := exists_of_judge result
  exact ⟨offer, (List.of_mem_zip member).1, same⟩

/-! The offer that a scan comes to rest on. -/

theorem scan_append_singleton (aspiration : Aspiration K) (firstCall : Nat)
    (offers : List (Offer K)) (last : Offer K) :
    scan aspiration firstCall (offers ++ [last]) =
      (scan aspiration firstCall offers).consider last
        (aspiration (firstCall + offers.length) last.candidate) := by
  have asked : answers aspiration firstCall (offers ++ [last]) =
      answers aspiration firstCall offers ++
        [aspiration (firstCall + offers.length) last.candidate] := by
    simp [answers, List.zipIdx_append]
  rw [scan, asked, List.zip_append (length_answers ..).symm, judge, List.foldl_append]
  rfl

/-- The offer was accepted when it was met, and from then on the scan stayed with it. -/
def SettlesOn (aspiration : Aspiration K) (firstCall : Nat) (offers : List (Offer K))
    (offer : Offer K) : Prop :=
  ∃ before after, offers = before ++ offer :: after ∧
    (scan aspiration firstCall before).accepts
      (aspiration (firstCall + before.length) offer.candidate) offer.candidate = true ∧
    ∀ met, met <+: after →
      scan aspiration firstCall (before ++ offer :: met) = ⟨some offer.candidate, offer.edge⟩

namespace SettlesOn

variable {aspiration : Aspiration K} {firstCall : Nat} {offers : List (Offer K)} {offer : Offer K}

theorem mem (settles : SettlesOn aspiration firstCall offers offer) : offer ∈ offers := by
  obtain ⟨before, after, rfl, -⟩ := settles
  simp

theorem ne_nil (settles : SettlesOn aspiration firstCall offers offer) : offers ≠ [] :=
  List.ne_nil_of_mem settles.mem

/-- The candidate and the edge of a scan are those of one and the same offer. -/
theorem scan_eq (settles : SettlesOn aspiration firstCall offers offer) :
    scan aspiration firstCall offers = ⟨some offer.candidate, offer.edge⟩ := by
  obtain ⟨before, after, rfl, -, stays⟩ := settles
  exact stays after List.prefix_rfl

theorem unique {other : Offer K} (settles : SettlesOn aspiration firstCall offers offer)
    (also : SettlesOn aspiration firstCall offers other) : other = offer := by
  have same := also.scan_eq.symm.trans settles.scan_eq
  cases other
  cases offer
  cases same
  rfl

end SettlesOn

theorem exists_settlesOn (aspiration : Aspiration K) (firstCall : Nat) {offers : List (Offer K)}
    (someone : offers ≠ []) : ∃ offer, SettlesOn aspiration firstCall offers offer := by
  -- The last offer is the one, or else it changes nothing and the scan settled before it.
  induction offers using List.reverseRecOn with
  | nil => exact absurd rfl someone
  | append_singleton offers last ih =>
    by_cases accepted : (scan aspiration firstCall offers).accepts
        (aspiration (firstCall + offers.length) last.candidate) last.candidate = true
    · refine ⟨last, offers, [], rfl, accepted, fun met begun => ?_⟩
      rw [List.prefix_nil.1 begun, scan_append_singleton, consider, if_pos accepted]
    · have earlier : offers ≠ [] := by
        rintro rfl
        exact accepted (Bool.or_true _)
      obtain ⟨offer, before, after, rfl, taken, stays⟩ := ih earlier
      refine ⟨offer, before, after ++ [last], by simp, taken, fun met begun => ?_⟩
      rcases List.prefix_concat_iff.1 begun with rfl | sooner
      · rw [← List.cons_append, ← List.append_assoc, scan_append_singleton, consider,
          if_neg accepted, stays after List.prefix_rfl]
      · exact stays met sooner

theorem mem_of_scan {aspiration : Aspiration K} {firstCall : Nat} {offers : List (Offer K)}
    {candidate : Solution K} {edge : Edge}
    (found : scan aspiration firstCall offers = ⟨some candidate, edge⟩) :
    ⟨candidate, edge⟩ ∈ offers := by
  have someone : offers ≠ [] := by
    rintro rfl
    cases found
  obtain ⟨offer, settles⟩ := exists_settlesOn aspiration firstCall someone
  cases settles.scan_eq.symm.trans found
  exact settles.mem

/-- What two scans come to, one after the other: the offer that one of them settles on, unless the
other settles on a better one, or nothing if there is no offer at all. -/
inductive Selects (aspiration : Aspiration K) (within between : List (Offer K)) :
    Exploration K → Prop where
  | within {offer : Offer K} (settles : SettlesOn aspiration 0 within offer)
      (best : ∀ other, SettlesOn aspiration within.length between other →
        Scalar.undercuts other.candidate.cost offer.candidate.cost = false) :
      Selects aspiration within between ⟨some offer.candidate, offer.edge⟩
  | between {offer : Offer K} (settles : SettlesOn aspiration within.length between offer)
      (best : ∀ other, SettlesOn aspiration 0 within other →
        Scalar.undercuts offer.candidate.cost other.candidate.cost = true) :
      Selects aspiration within between ⟨some offer.candidate, offer.edge⟩
  | nothing (noneWithin : within = []) (noneBetween : between = []) :
      Selects aspiration within between nothing

theorem selects_cheaper (aspiration : Aspiration K) (within between : List (Offer K)) :
    Selects aspiration within between
      (cheaper (scan aspiration 0 within) (scan aspiration within.length between)) := by
  by_cases noWithin : within = [] <;> by_cases noBetween : between = []
  · subst noWithin noBetween
    exact .nothing rfl rfl
  · subst noWithin
    obtain ⟨offer, settles⟩ := exists_settlesOn aspiration 0 noBetween
    rw [List.length_nil, settles.scan_eq]
    exact .between settles fun other earlier => absurd rfl earlier.ne_nil
  · subst noBetween
    obtain ⟨offer, settles⟩ := exists_settlesOn aspiration 0 noWithin
    rw [settles.scan_eq]
    exact .within settles fun other later => absurd rfl later.ne_nil
  · obtain ⟨first, settlesFirst⟩ := exists_settlesOn aspiration 0 noWithin
    obtain ⟨second, settlesSecond⟩ := exists_settlesOn aspiration within.length noBetween
    rw [settlesFirst.scan_eq, settlesSecond.scan_eq]
    cases lower : Scalar.undercuts second.candidate.cost first.candidate.cost with
    | false =>
      simp only [cheaper, lower]
      exact .within settlesFirst fun other later => (settlesSecond.unique later) ▸ lower
    | true =>
      simp only [cheaper, lower]
      exact .between settlesSecond fun other earlier => (settlesFirst.unique earlier) ▸ lower

theorem Selects.unique {aspiration : Aspiration K} {within between : List (Offer K)}
    {first second : Exploration K} (one : Selects aspiration within between first)
    (other : Selects aspiration within between second) : second = first := by
  cases one with
  | within settles best =>
    cases other with
    | within also _ => rw [settles.unique also]
    | between later lower =>
      have higher := best _ later
      rw [lower _ settles] at higher
      cases higher
    | nothing noneWithin _ => exact absurd noneWithin settles.ne_nil
  | between settles best =>
    cases other with
    | within earlier higher =>
      have lower := best _ earlier
      rw [higher _ settles] at lower
      cases lower
    | between also _ => rw [settles.unique also]
    | nothing _ noneBetween => exact absurd noneBetween settles.ne_nil
  | nothing noneWithin noneBetween =>
    cases other with
    | within settles _ => exact absurd noneWithin settles.ne_nil
    | between settles _ => exact absurd noneBetween settles.ne_nil
    | nothing => rfl

theorem eq_or_eq_cheaper (first second : Exploration K) :
    cheaper first second = first ∨ cheaper first second = second := by
  unfold cheaper
  split
  · exact .inr rfl
  · exact .inl rfl
  · split
    · exact .inr rfl
    · exact .inl rfl

end Exploration

theorem Sweep.eq_scan_of_explore {sweep : Sweep (Offer K)} {aspiration : Aspiration K}
    {firstCall : Nat} {outcome : Exploration K}
    (explored : sweep.explore aspiration firstCall = .ok outcome) :
    outcome = .scan aspiration firstCall sweep.items := by
  unfold explore at explored
  split at explored
  · cases explored
  · exact (Except.ok.inj explored).symm

theorem Sweep.exists_of_explore {sweep : Sweep (Offer K)} {aspiration : Aspiration K}
    {firstCall : Nat} {outcome : Exploration K} {chosen : Solution K}
    (explored : sweep.explore aspiration firstCall = .ok outcome)
    (result : outcome.solution = some chosen) :
    ∃ offer ∈ sweep.items, offer.candidate = chosen := by
  rw [eq_scan_of_explore explored] at result
  exact Exploration.exists_of_scan result

/-- The better of two explorations was offered by one of them. -/
theorem Neighborhood.exists_of_best {neighborhood : Neighborhood K} {problem : Problem K}
    {solution : Solution K} {aspiration : Aspiration K} {outcome : Exploration K}
    {chosen : Solution K} (best : neighborhood.best problem solution aspiration = .ok outcome)
    (result : outcome.solution = some chosen) :
    ∃ offer, (offer ∈ (neighborhood.withinRoute problem solution).items ∨
      offer ∈ (neighborhood.betweenRoutes problem solution).items) ∧ offer.candidate = chosen := by
  obtain ⟨first, exploredFirst, best⟩ := Fault.bind_eq_ok.1 best
  obtain ⟨second, exploredSecond, best⟩ := Fault.bind_eq_ok.1 best
  cases best
  rcases Exploration.eq_or_eq_cheaper first second with same | same
  · rw [same] at result
    obtain ⟨offer, member, candidate⟩ := Sweep.exists_of_explore exploredFirst result
    exact ⟨offer, .inl member, candidate⟩
  · rw [same] at result
    obtain ⟨offer, member, candidate⟩ := Sweep.exists_of_explore exploredSecond result
    exact ⟨offer, .inr member, candidate⟩

end TruckDrone
