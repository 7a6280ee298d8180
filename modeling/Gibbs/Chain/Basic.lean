/-
  Chains: transitions applied one after the other, with some of the states kept.

  After every sweep the chain keeps its state if the schedule says so and then asks whether
  it is done.  A chain ends when it is done or when a sweep or the question fails.

  * `Outcome`: what is known of a computation that may fail or go on for ever;
  * `Chain.run`: at most `fuel` sweeps of a chain.
-/
import Gibbs.Chain.Schedule
import Gibbs.State
import Gibbs.Stream.Basic

namespace Gibbs

/-- What is known of a computation after a bounded number of steps. -/
inductive Outcome (α : Type) where
  | finished (a : α)
  | failed (e : Error)
  | running

namespace Outcome

/-- The outcome of a computation that ends. -/
def ofExcept {α : Type} : Except Error α → Outcome α
  | .ok a => finished a
  | .error e => failed e

/-- A function that may fail applied to what was computed. -/
def andThen {α β : Type} (o : Outcome α) (f : α → Except Error β) : Outcome β :=
  match o with
  | finished a => ofExcept (f a)
  | failed e => failed e
  | running => running

end Outcome

/-- The question whether a chain is done, asked after every sweep: it may depend on the
    randomness that is left, the draws kept so far, the state and the number of sweeps. -/
abbrev Question (σ : Type) := σ → List State → State → Nat → Except Error Bool

/-- A chain after its last sweep: the draws, the randomness that is left and the number of
    successful sweeps. -/
structure ChainEnd (σ : Type) where
  outcome : Outcome (List State)
  left : σ
  sweeps : Nat

namespace Chain

/-- The draws after a sweep. -/
def keep (sched : Schedule) (sweep : Nat) (draws : List State) (s : State) : List State :=
  if sched.keeps sweep then draws ++ [s] else draws

/-- At most `fuel` sweeps of a chain that has made `done` sweeps and kept `draws`. -/
def run {σ : Type} (step : State → Sampling σ State) (sched : Schedule) (isDone : Question σ) :
    Nat → Nat → List State → State → σ → ChainEnd σ
  | 0, done, _, _, r => ⟨.running, r, done⟩
  | fuel + 1, done, draws, s, r =>
    match (step s).outcome r with
    | (.error e, r') => ⟨.failed e, r', done⟩
    | (.ok s', r') =>
      let draws' := keep sched (done + 1) draws s'
      match isDone r' draws' s' (done + 1) with
      | .error e => ⟨.failed e, r', done + 1⟩
      | .ok true => ⟨.finished draws', r', done + 1⟩
      | .ok false => run step sched isDone fuel (done + 1) draws' s' r'

end Chain

end Gibbs
