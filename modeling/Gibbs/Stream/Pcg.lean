/-
  The permuted congruential generator with 128 bits of state and 64 bits of output.

  The state is multiplied and increased modulo `2 ^ 128`; the output is the exclusive or of
  its halves, rotated by its top six bits.

  * `Pcg.ofSeeds`: the generator started from a seed sequence;
  * `Pcg.next`: the next 64 bits;
  * `Pcg.uniform`: the next number in `[0, 1)`, a multiple of `2 ^ (-53)`.
-/
import Gibbs.Decimal.Binary
import Gibbs.Stream.SeedSequence

namespace Gibbs

/-- The state and the odd increment, both of 128 bits. -/
structure Pcg where
  state : Nat
  increment : Nat
deriving DecidableEq, Repr

namespace Pcg

/-- The multiplier of the congruential step. -/
def multiplier : Nat := 0x2360ED051FC65DA44385DF649FCCF645

/-- The congruential step. -/
def advance (g : Pcg) : Pcg :=
  { g with state := (g.state * multiplier + g.increment) % Nat.pow 2 128 }

/-- The output of a state: the halves combined and rotated to the right. -/
def output (state : Nat) : Nat :=
  let word := (state / Nat.pow 2 64) ^^^ (state % Nat.pow 2 64)
  let turn := state / Nat.pow 2 122
  (word / Nat.pow 2 turn + word * Nat.pow 2 (64 - turn)) % Nat.pow 2 64

/-- The next 64 bits, and the generator after them. -/
def next (g : Pcg) : Nat × Pcg :=
  let g := g.advance
  (output g.state, g)

/-- The next number in `[0, 1)`: the top 53 of the next 64 bits. -/
def uniform (g : Pcg) : Float × Pcg :=
  let (bits, g) := g.next
  (Decimal.ofRatio (bits / Nat.pow 2 11) (Nat.pow 2 53), g)

/-- The generator with the given start state and increment, set up by two steps. -/
def start (state increment : Nat) : Pcg :=
  let g : Pcg := ⟨0, (2 * increment + 1) % Nat.pow 2 128⟩
  let g := g.advance
  ({ g with state := (g.state + state) % Nat.pow 2 128 }).advance

/-- The generator started from a seed sequence. -/
def ofSeeds (s : SeedSequence) : Pcg :=
  match s.stateWords 4 with
  | [a, b, c, d] => start (a * Nat.pow 2 64 + b) (c * Nat.pow 2 64 + d)
  | _ => ⟨0, 1⟩

end Pcg

end Gibbs
