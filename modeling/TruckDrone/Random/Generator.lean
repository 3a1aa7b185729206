import TruckDrone.Random.Source

/-! A seeded generator of 64-bit words (xoshiro256++, seeded through splitmix64), and
the numbers and orders drawn from it. -/

set_option autoImplicit false

namespace TruckDrone

structure Generator where
  s0 : UInt64
  s1 : UInt64
  s2 : UInt64
  s3 : UInt64
  deriving DecidableEq, Repr

namespace Generator

def rotateLeft (word : UInt64) (places : UInt64) : UInt64 :=
  word <<< places ||| word >>> (64 - places)

def scramble (counter : UInt64) : UInt64 :=
  let z := (counter ^^^ counter >>> 30) * 0xbf58476d1ce4e5b9
  let z := (z ^^^ z >>> 27) * 0x94d049bb133111eb
  z ^^^ z >>> 31

def ofSeed (seed : UInt64) : Generator :=
  let word (n : UInt64) := scramble (seed + n * 0x9e3779b97f4a7c15)
  ⟨word 1, word 2, word 3, word 4⟩

def next (g : Generator) : UInt64 × Generator :=
  let t := g.s1 <<< 17
  let s2 := g.s2 ^^^ g.s0
  let s3 := g.s3 ^^^ g.s1
  (rotateLeft (g.s0 + g.s3) 23 + g.s0,
    ⟨g.s0 ^^^ s3, g.s1 ^^^ s2, s2 ^^^ t, rotateLeft s3 45⟩)

def halfWords : Nat := 0x100000000

def nextHalf (g : Generator) : Nat × Generator :=
  let (word, g) := g.next
  ((word >>> 32).toNat, g)

/-- A number below the bound, which is at most 32 bits long: the integer part of the
bound times a random fraction. -/
def below (bound : Nat) (g : Generator) : Nat × Generator :=
  let (half, g) := g.nextHalf
  let whole := half * bound / halfWords
  let part := half * bound % halfWords
  -- A second half word refines the fraction where a carry could reach the integer part.
  if halfWords - bound < part then
    let (finer, g) := g.nextHalf
    (if halfWords ≤ part + finer * bound / halfWords then whole + 1 else whole, g)
  else (whole, g)

/-- The largest product of `bound`, `factor`, `factor + 1`, … below 2^32, with the
factor that no longer fits. -/
def widen (bound factor : Nat) : Nat × Nat :=
  if _fits : bound < bound * factor ∧ bound * factor < halfWords then
    widen (bound * factor) (factor + 1)
  else (bound, factor)
  termination_by halfWords - bound

/-- A supply of random positions, the n-th of them below n. One number is drawn for as
many positions as fit into 32 bits and taken apart by division. -/
structure Positions where
  generator : Generator
  given : Nat
  chunk : Nat
  left : Nat

namespace Positions

def start (generator : Generator) : Positions := ⟨generator, 0, 0, 1⟩

def refill (supply : Positions) : Positions :=
  if supply.left = 0 then
    let (bound, factor) := widen (supply.given + 1) (supply.given + 2)
    let (chunk, generator) := below bound supply.generator
    { supply with generator, chunk, left := factor - (supply.given + 1) }
  else supply

def next (supply : Positions) : Nat × Positions :=
  let ready := supply.refill
  let count := ready.given + 1
  let left := ready.left - 1
  if left = 0 then (ready.chunk, { ready with given := count, left })
  else (ready.chunk % count, { ready with given := count, chunk := ready.chunk / count, left })

end Positions

def shuffle (items : List Nat) (g : Generator) : List Nat × Generator :=
  if items.length ≤ 1 then (items, g)
  else
    let (shuffled, supply) := (List.range items.length).foldl
      (fun (items, supply) i =>
        let (position, supply) := supply.next
        (items.swapIfInBounds i position, supply))
      (items.toArray, Positions.start g)
    (shuffled.toList, supply.generator)

instance : RandomSource Generator := ⟨shuffle, below⟩

end Generator

end TruckDrone
