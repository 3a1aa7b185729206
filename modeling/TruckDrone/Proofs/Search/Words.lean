import Mathlib.Algebra.Ring.Nat
import TruckDrone.Proofs.Route
import TruckDrone.Search.Move

/-! The words of a plan and the texts of edges and fingerprints. A list comes after its length, and
the digits of a number end at a mark that is no digit. So each of them is told from what follows,
and plans with the same words are the same. -/

set_option autoImplicit false

namespace TruckDrone

/-- What is written for an item tells where it ends, whatever is written behind it. -/
def SelfDelimiting {α β : Type} (code : α → List β) : Prop :=
  ∀ first second rest other, code first ++ rest = code second ++ other →
    first = second ∧ rest = other

namespace SelfDelimiting

variable {α β : Type} {code : α → List β} {items others : List α}

theorem injective (delimits : SelfDelimiting code) : Function.Injective code := by
  intro first second same
  exact (delimits first second [] [] (by rw [same])).1

theorem flatMap_append (delimits : SelfDelimiting code) (count : items.length = others.length)
    {rest other : List β} (same : items.flatMap code ++ rest = others.flatMap code ++ other) :
    items = others ∧ rest = other := by
  induction items generalizing others with
  | nil =>
    cases List.eq_nil_of_length_eq_zero count.symm
    exact ⟨rfl, same⟩
  | cons head tail ih =>
    cases others with
    | nil => cases count
    | cons first later =>
      rw [List.flatMap_cons, List.flatMap_cons, List.append_assoc, List.append_assoc] at same
      obtain ⟨rfl, behind⟩ := delimits _ _ _ _ same
      obtain ⟨rfl, last⟩ := ih (Nat.succ.inj count) behind
      exact ⟨rfl, last⟩

/-- Where something is written for every item, their number need not be known. -/
theorem flatMap_injective (delimits : SelfDelimiting code) (written : ∀ item, code item ≠ [])
    (same : items.flatMap code = others.flatMap code) : items = others := by
  induction items generalizing others with
  | nil =>
    cases others with
    | nil => rfl
    | cons first later => exact absurd same.symm (by simp [written first])
  | cons head tail ih =>
    cases others with
    | nil => exact absurd same (by simp [written head])
    | cons first later =>
      rw [List.flatMap_cons, List.flatMap_cons] at same
      obtain ⟨rfl, behind⟩ := delimits _ _ _ _ same
      rw [ih behind]

theorem wordsOf {words : α → List Nat} (delimits : SelfDelimiting words) :
    SelfDelimiting (wordsOf words) := by
  intro items others rest other same
  obtain ⟨count, same⟩ := List.cons.inj same
  exact delimits.flatMap_append count same

end SelfDelimiting

/-! Words. -/

theorem selfDelimiting_id : SelfDelimiting fun id : Nat => [id] :=
  fun _ _ _ _ same => List.cons.inj same

theorem Route.selfDelimiting_words : SelfDelimiting Route.words := by
  intro first second rest other same
  obtain ⟨kinds, same⟩ := List.cons.inj same
  obtain ⟨stops, same⟩ := selfDelimiting_id.wordsOf _ _ _ _ same
  have kind : first.kind = second.kind := by
    cases one : first.kind <;> cases two : second.kind <;> simp [one, two] at kinds ⊢
  exact ⟨ext_stops kind stops, same⟩

/-- The words tell the trucks from the drones. -/
theorem Plan.words_injective : Function.Injective Plan.words := by
  intro first second same
  have delimits := Route.selfDelimiting_words.wordsOf.wordsOf
  obtain ⟨trucks, drones⟩ := delimits _ _ _ _ same
  cases first
  cases second
  cases trucks
  cases delimits.injective drones
  rfl

/-! Texts. -/

theorem Decimal.selfDelimiting_digits {mark : Char} (other : mark.isDigit = false) :
    SelfDelimiting fun n => digits n ++ [mark] := by
  have run (n : Nat) (rest : List Char) :
      ((digits n ++ [mark]) ++ rest).takeWhile Char.isDigit = digits n := by
    rw [List.append_assoc, List.takeWhile_append_of_pos (isDigit_of_mem_digits n),
      List.singleton_append, List.takeWhile_cons_of_neg (by simp [other]), List.append_nil]
  intro first second rest behind same
  obtain rfl : first = second := by
    apply digits_injective
    rw [← run first rest, same, run]
  exact ⟨rfl, List.append_cancel_left same⟩

theorem dotted_injective : Function.Injective dotted := by
  intro first second same
  exact (Decimal.selfDelimiting_digits (by decide)).flatMap_injective (by simp)
    (String.ofList_injective same)

theorem Edge.text_injective : Function.Injective Edge.text := by
  rintro ⟨a, b⟩ ⟨c, d⟩ same
  have written : (Decimal.digits a ++ ['-']) ++ Decimal.digits b =
      (Decimal.digits c ++ ['-']) ++ Decimal.digits d := by
    simpa using String.ofList_injective same
  obtain ⟨rfl, behind⟩ := Decimal.selfDelimiting_digits (by decide) _ _ _ _ written
  rw [Decimal.digits_injective behind]

def hexadecimal : Nat → Nat → List Char
  | 0, _ => []
  | count + 1, n => hexadecimal count (n / 16) ++ [Nat.digitChar (n % 16)]

theorem hexadecimal_inj {count m n : Nat} (fits : m < 16 ^ count) (fitsToo : n < 16 ^ count)
    (same : hexadecimal count m = hexadecimal count n) : m = n := by
  have digit : ∀ a < 16, ∀ b < 16, Nat.digitChar a = Nat.digitChar b → a = b := by decide
  induction count generalizing m n with
  | zero => omega
  | succ count ih =>
    obtain ⟨front, last⟩ := List.append_inj' same rfl
    have quotient : m / 16 = n / 16 := ih (by omega) (by omega) front
    have remainder : m % 16 = n % 16 :=
      digit _ (Nat.mod_lt _ (by decide)) _ (Nat.mod_lt _ (by decide)) (List.cons.inj last).1
    omega

def stamp (hash : List Nat → UInt64) (words : List Nat) : String :=
  .ofList (hexadecimal 16 (hash words).toNat)

theorem stamp_eq_iff {hash : List Nat → UInt64} {first second : List Nat} :
    stamp hash first = stamp hash second ↔ hash first = hash second := by
  refine ⟨fun same => ?_, fun same => by rw [stamp, stamp, same]⟩
  exact UInt64.toNat_inj.1 (hexadecimal_inj (hash first).toNat_lt (hash second).toNat_lt
    (String.ofList_injective same))

end TruckDrone
