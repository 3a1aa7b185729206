import TruckDrone.Fault

/-! Enumerations in a fixed order. A sweep is the list of what was met, cut short at
the first fault; nested sweeps read as nested loops. -/

set_option autoImplicit false

namespace TruckDrone

structure Sweep (α : Type) where
  items : List α
  fault : Option Fault

namespace Sweep

variable {α β : Type}

def append (first second : Sweep α) : Sweep α :=
  match first.fault with
  | some _ => first
  | none => ⟨first.items ++ second.items, second.fault⟩

def bind (sweep : Sweep α) (body : α → Sweep β) : Sweep β :=
  sweep.items.foldr (fun item rest => (body item).append rest) ⟨[], sweep.fault⟩

instance : Monad Sweep where
  pure item := ⟨[item], none⟩
  bind := bind

def each (items : List α) : Sweep α := ⟨items, none⟩

def lift : Except Fault α → Sweep α
  | .ok item => ⟨[item], none⟩
  | .error fault => ⟨[], some fault⟩

def keepIf (condition : Bool) : Sweep Unit := ⟨if condition then [()] else [], none⟩

theorem append_of_clean {first : Sweep α} (clean : first.fault = none) (second : Sweep α) :
    first.append second = ⟨first.items ++ second.items, second.fault⟩ := by
  simp [append, clean]

@[simp] theorem fault_each (items : List α) : (each items).fault = none := rfl

end Sweep

end TruckDrone
