import TruckDrone.Random.Generator

/-! What construction relies on in a source of randomness, and that the seeded generator keeps to
it for every seed and every bound. -/

set_option autoImplicit false

namespace TruckDrone

/-- Shuffling loses and repeats nothing, and a number drawn is below the bound asked for. -/
class LawfulRandomSource (σ : Type) [RandomSource σ] : Prop where
  shuffle_perm (items : List Nat) (source : σ) : (RandomSource.shuffle items source).1.Perm items
  below_lt {bound : Nat} (positive : 0 < bound) (source : σ) :
    (RandomSource.below bound source).1 < bound

namespace Generator

theorem nextHalf_lt (g : Generator) : g.nextHalf.1 < halfWords := by
  have word := g.next.1.toNat_lt
  have high : g.nextHalf.1 = g.next.1.toNat / 2 ^ 32 := by
    simp [nextHalf, Nat.shiftRight_eq_div_pow]
  rw [high, halfWords]
  omega

theorem below_lt {bound : Nat} (positive : 0 < bound) (g : Generator) :
    (below bound g).1 < bound := by
  have half := nextHalf_lt g
  have whole : g.nextHalf.1 * bound / halfWords < bound :=
    Nat.div_lt_of_lt_mul (Nat.mul_lt_mul_of_pos_right half positive)
  unfold below
  dsimp only
  split
  next refined =>
    -- Where the integer part is the last below the bound, the fraction is too small to be refined.
    have least : (g.nextHalf.1 + 1) * bound ≤ halfWords * bound := Nat.mul_le_mul_right _ half
    have parts := Nat.div_add_mod (g.nextHalf.1 * bound) halfWords
    rw [Nat.succ_mul] at least
    unfold halfWords at *
    split
    · dsimp only
      omega
    · exact whole
  next => exact whole

theorem perm_swapIfInBounds (items : Array Nat) (i j : Nat) :
    (items.swapIfInBounds i j).Perm items := by
  unfold Array.swapIfInBounds
  split
  · split
    · exact Array.swap_perm _ _
    · exact .rfl
  · exact .rfl

/-- Exchanging items at drawn positions loses none, wherever the positions come from. -/
theorem foldl_swap_perm (places : List Nat) (items : Array Nat) (supply : Positions) :
    (places.foldl (fun (items, supply) i =>
      let (position, supply) := Positions.next supply
      (items.swapIfInBounds i position, supply)) (items, supply)).1.Perm items := by
  induction places generalizing items supply with
  | nil => exact .rfl
  | cons i rest ih => exact (ih _ _).trans (perm_swapIfInBounds ..)

theorem shuffle_perm (items : List Nat) (g : Generator) : (shuffle items g).1.Perm items := by
  unfold shuffle
  split
  · exact .refl _
  · exact (foldl_swap_perm _ _ _).toList

instance : LawfulRandomSource Generator := ⟨shuffle_perm, below_lt⟩

end Generator

end TruckDrone
