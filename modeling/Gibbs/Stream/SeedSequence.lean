/-
  Seed sequences: entropy mixed into the words that start a generator.

  The entropy and the spawn key are cut into words of 32 bits and mixed into a pool of four
  words; the words of a state are derived from the pool.  The `k`-th child of a sequence has
  the same entropy and the spawn key extended by `k`, so it depends on nothing but the
  sequence and `k`.

  * `SeedSequence.ofInt?`: the sequence of an integer;
  * `SeedSequence.child`: the child with a number;
  * `SeedSequence.stateWords`: the derived words, in pairs of 64 bits.
-/

namespace Gibbs

/-- A source of seeds, with the number of children it has already given out. -/
structure SeedSequence where
  entropy : List Nat
  spawnKey : List Nat
  spawned : Nat
deriving DecidableEq, Repr

namespace SeedSequence

/-- The words of 32 bits of a natural number, the lowest first; at least one. -/
def words (n : Nat) : List UInt32 :=
  let low := UInt32.ofNat (n % Nat.pow 2 32)
  if n < Nat.pow 2 32 then [low] else low :: words (n / Nat.pow 2 32)
termination_by n
decreasing_by
  have hbound : Nat.pow 2 32 ≤ n := Nat.le_of_not_lt ‹_›
  exact Nat.div_lt_self (Nat.lt_of_lt_of_le (by decide) hbound) (by decide)

/-- The sequence of an integer, which must not be negative. -/
def ofInt? (i : Int) : Option SeedSequence :=
  if i < 0 then none else some ⟨[i.toNat], [], 0⟩

/-- The sequence of several integers and a spawn key, none of them negative. -/
def ofInts? (entropy spawnKey : List Int) : Option SeedSequence :=
  if (entropy ++ spawnKey).any (· < 0) then none
  else some ⟨entropy.map Int.toNat, spawnKey.map Int.toNat, 0⟩

/-- The `k`-th child. -/
def child (s : SeedSequence) (k : Nat) : SeedSequence := ⟨s.entropy, s.spawnKey ++ [k], 0⟩

/-! ## Mixing -/

/-- The entropy in words; before a spawn key it is filled up to the size of the pool. -/
def inputWords (s : SeedSequence) : List UInt32 :=
  let run := s.entropy.flatMap words
  let key := s.spawnKey.flatMap words
  if key.isEmpty then run else run ++ List.replicate (4 - run.length) 0 ++ key

/-- A word hashed with a running constant, and the next constant. -/
def hashWord (value constant : UInt32) : UInt32 × UInt32 :=
  let next := constant * 0x931e8875
  let v := (value ^^^ constant) * next
  (v ^^^ (v >>> 16), next)

/-- Two words mixed into one. -/
def mixWords (x y : UInt32) : UInt32 :=
  let r := 0xca01f9dd * x - 0x4973f715 * y
  r ^^^ (r >>> 16)

/-- The pool while it is mixed, with the running constant. -/
structure Pool where
  cells : Array UInt32
  constant : UInt32

/-- A word hashed into the cell with the given place. -/
def Pool.absorb (value : UInt32) (p : Pool) (place : Nat) : Pool :=
  let (h, next) := hashWord value p.constant
  ⟨p.cells.setIfInBounds place (mixWords (p.cells.getD place 0) h), next⟩

/-- The pool of four words of a sequence: the first four words hashed, then every cell mixed
    into every other one, then the remaining words mixed into all cells. -/
def pool (s : SeedSequence) : Array UInt32 :=
  let input := s.inputWords
  let start : Pool := (List.range 4).foldl
    (fun p i =>
      let (h, next) := hashWord (input.getD i 0) p.constant
      ⟨p.cells.push h, next⟩) ⟨#[], 0x43b0d7e5⟩
  let crossed := (List.range 4).foldl
    (fun p source => ((List.range 4).filter (· != source)).foldl
      (fun p place => p.absorb (p.cells.getD source 0) place) p) start
  ((input.drop 4).foldl (fun p w => (List.range 4).foldl (fun p place => p.absorb w place) p)
    crossed).cells

/-- The first `count` derived words of 32 bits. -/
def derivedWords (s : SeedSequence) (count : Nat) : List UInt32 :=
  let pool := s.pool
  ((List.range count).foldl
    (fun (acc : List UInt32 × UInt32) i =>
      let next := acc.2 * 0x58f38ded
      let v := (pool.getD (i % 4) 0 ^^^ acc.2) * next
      (acc.1 ++ [v ^^^ (v >>> 16)], next)) ([], 0x8b51f9dd)).1

/-- Words joined in pairs, the lower one first. -/
def joinPairs : List UInt32 → List Nat
  | low :: high :: rest => (low.toNat + high.toNat * Nat.pow 2 32) :: joinPairs rest
  | _ => []

/-- The first `count` derived words of 64 bits. -/
def stateWords (s : SeedSequence) (count : Nat) : List Nat :=
  joinPairs (s.derivedWords (2 * count))

end SeedSequence

end Gibbs
