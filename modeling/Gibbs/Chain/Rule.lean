/-
  Stopping rules: how many draws a chain makes.

  A chain stops when it has kept a number of draws, or when a question of the caller's is
  answered with yes.  The number is compared as it is given, so one that is not whole is
  never reached.

  * `Rule.sweepBound`: the number of sweeps that are looked at for a number of draws;
  * `Rule.run`: a chain that stops by a rule;
  * `consultations`: the sweeps after which the caller's question is asked, each with the
    number of draws kept by then.
-/
import Gibbs.Chain.Basic
import Gibbs.Value.Count

namespace Gibbs

/-- When a chain stops. -/
inductive Rule (σ : Type) where
  /-- after a number of kept draws -/
  | count (n : Value)
  /-- when a question is answered with yes; it is asked at most `horizon` times -/
  | question (isDone : Question σ) (horizon : Nat)

namespace Rule

/-- Whether the rule is a question of the caller's. -/
def isQuestion {σ : Type} : Rule σ → Bool
  | count _ => false
  | question _ _ => true

/-- The question whether a number of draws is kept. -/
def countReached {σ : Type} (n : Value) : Question σ :=
  fun _ draws _ _ => .ok (n.equalsCount draws.length)

/-- The sweeps that are looked at beyond the announced ones if the number of draws is not
    whole. -/
def patience : Nat := 10000

/-- The number of sweeps that are looked at for `n` draws, where `k` is `n` cut to an integer.
    A number that is not whole is never reached; what may still end the chain is a sweep that
    fails. -/
def sweepBound (n : Value) (sched : Schedule) (k : Nat) : Nat :=
  if n.equalsCount k then sched.sweepsFor k else sched.sweepsFor k + patience

/-- A chain that stops by a rule.  No draws take no sweeps. -/
def run {σ : Type} (rule : Rule σ) (step : State → Sampling σ State) (sched : Schedule)
    (start : State) (r : σ) : ChainEnd σ :=
  match rule with
  | question isDone horizon => Chain.run step sched isDone horizon 0 [] start r
  | count n =>
    match n.truncated with
    | .error f => ⟨.failed f, r, 0⟩
    | .ok k =>
      if n.equalsCount 0 then ⟨.finished [], r, 0⟩
      else Chain.run step sched (countReached n) (sweepBound n sched k.toNat) 0 [] start r

theorem sweepBound_pos (n : Value) (sched : Schedule) (k : Nat) : 0 < sweepBound n sched k := by
  unfold sweepBound
  split
  · exact Nat.succ_pos _
  · exact Nat.add_pos_left (Nat.succ_pos _) _

end Rule

/-- The consultations of a question in `sweeps` sweeps: the number of each sweep together
    with the number of draws kept by then. -/
def consultations (sched : Schedule) (sweeps : Nat) : List (Nat × Nat) :=
  (List.range sweeps).map fun k =>
    (k + 1, ((List.range (k + 1)).filter fun j => sched.keeps (j + 1)).length)

end Gibbs
