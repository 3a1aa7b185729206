import TruckDrone.Fault

/-! Positions of a list. Every operation checks its position and reports a fault
for one outside the list, so a caller that stays in range has that to prove. -/

set_option autoImplicit false

namespace TruckDrone.Sequence

variable {α : Type}

/-- The positions from `low` up to but not including `high`. -/
def span (low high : Nat) : List Nat := List.range' low (high - low)

theorem mem_span {low high position : Nat} :
    position ∈ span low high ↔ low ≤ position ∧ position < high := by
  simp only [span, List.mem_range'_1]
  omega

def entry (items : List α) (position : Nat) : Except Fault α :=
  match items[position]? with
  | some item => .ok item
  | none => .error (.outOfRange position items.length)

def upTo (items : List α) (position : Nat) : Except Fault (List α) :=
  if position < items.length then .ok (items.take (position + 1))
  else .error (.outOfRange position items.length)

def beyond (items : List α) (position : Nat) : Except Fault (List α) :=
  if position < items.length then .ok (items.drop (position + 1))
  else .error (.outOfRange position items.length)

def insertAt (items : List α) (position : Nat) (item : α) : Except Fault (List α) :=
  if position ≤ items.length then .ok (items.insertIdx position item)
  else .error (.outOfRange position items.length)

def eraseAt (items : List α) (position : Nat) : Except Fault (List α) :=
  if position < items.length then .ok (items.eraseIdx position)
  else .error (.outOfRange position items.length)

def replaceAt (items : List α) (position : Nat) (item : α) : Except Fault (List α) :=
  if position < items.length then .ok (items.set position item)
  else .error (.outOfRange position items.length)

theorem entry_eq_ok {items : List α} {position : Nat} (inside : position < items.length) :
    entry items position = .ok items[position] := by
  simp [entry, inside]

theorem upTo_eq_ok {items : List α} {position : Nat} (inside : position < items.length) :
    upTo items position = .ok (items.take (position + 1)) := if_pos inside

theorem beyond_eq_ok {items : List α} {position : Nat} (inside : position < items.length) :
    beyond items position = .ok (items.drop (position + 1)) := if_pos inside

theorem insertAt_eq_ok {items : List α} {position : Nat} (inside : position ≤ items.length)
    (item : α) : insertAt items position item = .ok (items.insertIdx position item) :=
  if_pos inside

theorem eraseAt_eq_ok {items : List α} {position : Nat} (inside : position < items.length) :
    eraseAt items position = .ok (items.eraseIdx position) := if_pos inside

theorem replaceAt_eq_ok {items : List α} {position : Nat} (inside : position < items.length)
    (item : α) : replaceAt items position item = .ok (items.set position item) := if_pos inside

def reverseSegment (items : List α) (start length : Nat) : List α :=
  items.take start ++ ((items.drop start).take length).reverse ++ items.drop (start + length)

theorem reverseSegment_perm (items : List α) (start length : Nat) :
    (reverseSegment items start length).Perm items := by
  have split : items.take start ++ ((items.drop start).take length) ++
      items.drop (start + length) = items := by
    rw [List.append_assoc, ← List.drop_drop, List.take_append_drop, List.take_append_drop]
  refine List.Perm.trans ?_ (List.Perm.of_eq split)
  exact ((List.reverse_perm _).append_left _).append_right _

theorem mem_reverseSegment {items : List α} {start length : Nat} {item : α} :
    item ∈ reverseSegment items start length ↔ item ∈ items :=
  (reverseSegment_perm items start length).mem_iff

end TruckDrone.Sequence
