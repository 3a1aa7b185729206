/-! Natural numbers as decimal digits, and back. -/

set_option autoImplicit false

namespace TruckDrone.Decimal

def digitChar (digit : Nat) : Char := Char.ofNat (48 + digit)

def digits (n : Nat) : List Char :=
  if _small : n < 10 then [digitChar n] else digits (n / 10) ++ [digitChar (n % 10)]
  termination_by n

def appendDigit (number : Nat) (digit : Char) : Nat := 10 * number + (digit.toNat - 48)

def value (run : List Char) : Nat := run.foldl appendDigit 0

/-- Appends digits to a number as long as it stays below a bound: the number reached, and
the digits from the first that would take it further. -/
def appendBelow (bound number : Nat) : List Char → Nat × List Char
  | [] => (number, [])
  | digit :: rest =>
    if appendDigit number digit < bound then appendBelow bound (appendDigit number digit) rest
    else (number, digit :: rest)

theorem isDigit_digitChar : ∀ digit < 10, (digitChar digit).isDigit := by decide

theorem toNat_digitChar : ∀ digit < 10, (digitChar digit).toNat = 48 + digit := by decide

theorem le_foldl_appendDigit (run : List Char) :
    ∀ number, number ≤ run.foldl appendDigit number := by
  induction run with
  | nil => exact fun number => Nat.le_refl number
  | cons digit rest ih =>
    intro number
    have longer : number ≤ appendDigit number digit := by
      unfold appendDigit
      omega
    exact Nat.le_trans longer (ih _)

theorem appendBelow_eq_foldl {bound : Nat} (run : List Char) :
    ∀ number, run.foldl appendDigit number < bound →
      appendBelow bound number run = (run.foldl appendDigit number, []) := by
  induction run with
  | nil => exact fun _ _ => rfl
  | cons digit rest ih =>
    intro number inside
    have fits : appendDigit number digit < bound :=
      Nat.lt_of_le_of_lt (le_foldl_appendDigit rest _) inside
    rw [appendBelow, if_pos fits]
    exact ih _ inside

theorem appendBelow_eq_value {bound : Nat} {run : List Char} (inside : value run < bound) :
    appendBelow bound 0 run = (value run, []) := appendBelow_eq_foldl run 0 inside

theorem digits_ne_nil (n : Nat) : digits n ≠ [] := by
  rw [digits]
  split <;> simp

theorem isDigit_of_mem_digits (n : Nat) : ∀ c ∈ digits n, c.isDigit := by
  induction n using Nat.strongRecOn with
  | ind n shorter =>
    intro c member
    rw [digits] at member
    split at member
    · rename_i small
      rw [List.mem_singleton.1 member]
      exact isDigit_digitChar n small
    · rename_i large
      rcases List.mem_append.1 member with front | last
      · exact shorter (n / 10) (by omega) c front
      · rw [List.mem_singleton.1 last]
        exact isDigit_digitChar _ (Nat.mod_lt _ (by omega))

theorem value_append_singleton (run : List Char) (c : Char) :
    value (run ++ [c]) = 10 * value run + (c.toNat - 48) := by
  simp [value, appendDigit]

@[simp] theorem value_digits (n : Nat) : value (digits n) = n := by
  induction n using Nat.strongRecOn with
  | ind n shorter =>
    rw [digits]
    split
    · rename_i small
      simp [value, appendDigit, toNat_digitChar n small]
    · rename_i large
      rw [value_append_singleton, shorter (n / 10) (by omega),
        toNat_digitChar _ (Nat.mod_lt _ (by omega))]
      omega

theorem digits_injective {m n : Nat} (same : digits m = digits n) : m = n := by
  rw [← value_digits m, same, value_digits]

end TruckDrone.Decimal
