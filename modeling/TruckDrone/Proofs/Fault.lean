import TruckDrone.Fault

/-! Steps that may be refused, one after the other. -/

set_option autoImplicit false

namespace TruckDrone.Fault

variable {α β : Type}

@[simp] theorem ok_bind (item : α) (next : α → Except Fault β) :
    (Except.ok item >>= next) = next item := rfl

@[simp] theorem pure_eq_ok (item : α) : (pure item : Except Fault α) = .ok item := rfl

theorem bind_eq_ok {answer : Except Fault α} {next : α → Except Fault β} {result : β} :
    (answer >>= next) = .ok result ↔ ∃ item, answer = .ok item ∧ next item = .ok result := by
  cases answer with
  | ok item => simp
  | error fault => simp [bind, Except.bind]

theorem map_eq_ok {answer : Except Fault α} {change : α → β} {result : β} :
    change <$> answer = .ok result ↔ ∃ item, answer = .ok item ∧ change item = result := by
  cases answer with
  | ok item => simp [Functor.map, Except.map]
  | error fault => simp [Functor.map, Except.map]

theorem exists_of_mapM {step : α → Except Fault β} {items : List α} {results : List β}
    (done : items.mapM step = .ok results) {result : β} (member : result ∈ results) :
    ∃ item ∈ items, step item = .ok result := by
  induction items generalizing results with
  | nil =>
    cases done
    cases member
  | cons head tail ih =>
    rw [List.mapM_cons] at done
    obtain ⟨first, here, done⟩ := bind_eq_ok.1 done
    obtain ⟨rest, others, done⟩ := bind_eq_ok.1 done
    cases done
    rcases List.mem_cons.1 member with rfl | later
    · exact ⟨head, List.mem_cons_self .., here⟩
    · obtain ⟨item, inTail, same⟩ := ih others later
      exact ⟨item, List.mem_cons_of_mem _ inTail, same⟩

theorem mapM_eq_ok {step : α → Except Fault β} {items : List α}
    (passes : ∀ item ∈ items, ∃ result, step item = .ok result) :
    ∃ results, items.mapM step = .ok results := by
  induction items with
  | nil => exact ⟨[], rfl⟩
  | cons head tail ih =>
    obtain ⟨first, here⟩ := passes head (List.mem_cons_self ..)
    obtain ⟨rest, others⟩ := ih fun item member => passes item (List.mem_cons_of_mem _ member)
    refine ⟨first :: rest, ?_⟩
    rw [List.mapM_cons, here, ok_bind, others]
    rfl

theorem mapM_map_result {γ : Type} {step : α → Except Fault β} {change : β → γ} (items : List α) :
    items.mapM (fun item => change <$> step item) = List.map change <$> items.mapM step := by
  induction items with
  | nil => rfl
  | cons head tail ih =>
    rw [List.mapM_cons, List.mapM_cons, ih]
    cases step head with
    | error fault => rfl
    | ok first => cases tail.mapM step <;> rfl

theorem filterM_eq_ok {α : Type} {ask : α → Except Fault Bool} {accepts : α → Bool}
    {items : List α} (answers : ∀ item ∈ items, ask item = .ok (accepts item)) :
    items.filterM ask = .ok (items.filter accepts) := by
  have kept : ∀ held, items.filterAuxM ask held =
      .ok ((items.filter accepts).reverse ++ held) := by
    -- What was kept so far stands in reverse, and the filter goes on from there.
    induction items with
    | nil => exact fun _ => rfl
    | cons head tail ih =>
      intro held
      obtain ⟨here, later⟩ := List.forall_mem_cons.1 answers
      rw [List.filterAuxM, here, ok_bind, ih later]
      cases accepted : accepts head <;> simp [accepted]
  rw [List.filterM, kept, ok_bind, List.append_nil, List.reverse_reverse, pure_eq_ok]

end TruckDrone.Fault
