/-
  Plans: the arguments of a run of several chains, as they are given and as they are checked.

  Counts may be any numbers.  They are compared with their bounds as they are, in a fixed
  order, and cut to integers only when they are used.

  * `Plan.check`: the first argument out of its range is an error;
  * `Plan.startStates`: the state that each chain starts from;
  * `Plan.schedule`: the schedule of all chains.
-/
import Gibbs.Chain.Rule

namespace Gibbs

/-- The states that chains start from. -/
inductive Starts where
  /-- the initial state of the sampler -/
  | initial
  /-- one state for all chains -/
  | shared (s : State)
  /-- one state per chain -/
  | each (ss : List State)

/-- The arguments of a run. -/
structure Plan (σ : Type) where
  rule : Rule σ
  chains : Value
  thin : Value
  discard : Value
  workers? : Option Value
  parallel : Bool
  starts : Starts

namespace Plan

variable {σ : Type}

/-- A plan for a single chain of which every sweep is kept. -/
def ofRule (rule : Rule σ) : Plan σ :=
  { rule := rule, chains := .int 1, thin := .int 1, discard := .int 0, workers? := none,
    parallel := false, starts := .initial }

/-- An error if a value is less than a bound. -/
def atLeast (bound : Int) (v : Value) (e : Error) : Except Error Unit := do
  if ← orError (v.lessThan bound) then throw e

/-- The check of the stopping rule. -/
def checkRule (p : Plan σ) : Except Error Unit :=
  match p.rule with
  | .question _ _ => if p.chains.equalsCount 1 then .ok () else .error .ruleForManyChains
  | .count n => atLeast 0 n (.drawsNegative n)

/-- The check of all arguments against their ranges. -/
def check (p : Plan σ) : Except Error Unit := do
  atLeast 1 p.chains (.tooFewChains p.chains)
  atLeast 1 p.thin (.thinTooSmall p.thin)
  atLeast 0 p.discard (.discardNegative p.discard)
  p.checkRule
  match p.workers? with
  | some w => atLeast 1 w (.tooFewWorkers w)
  | none => return ()

/-- The number of chains. -/
def chainCount (p : Plan σ) : Except Error Nat := do
  return (← orError p.chains.truncated).toNat

/-- The number of threads for `chains` chains. -/
def workerCount (p : Plan σ) (chains : Nat) : Except Error Nat :=
  match p.workers? with
  | none => .ok chains
  | some w => do return min (← orError w.truncated).toNat chains

/-- The schedule of all chains. -/
def schedule (p : Plan σ) : Except Error Schedule := do
  let discard ← orError p.discard.truncated
  return .ofInts discard (← orError p.thin.truncated)

/-- The states that `chains` chains start from. -/
def startStates (p : Plan σ) (initial : State) (chains : Nat) : Except Error (List State) :=
  match p.starts with
  | .initial => .ok (List.replicate chains initial)
  | .shared s => .ok (List.replicate chains s)
  | .each ss => if ss.length = chains then .ok ss else .error (.startCount ss.length chains)

end Plan

end Gibbs
