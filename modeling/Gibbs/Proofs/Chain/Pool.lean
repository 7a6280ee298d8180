/-
  Chains that run at the same time, as a system of interleaved steps.

  A pool of workers takes up the chains in their order, at most as many at a time as there are
  workers.  A chain that is taken up looks at a stop flag before each of its sweeps, and ends
  early if the flag is up.  The caller waits for the chains in their order.  If the chain that
  it waits for has failed, it raises the flag, cancels the chains that no worker has taken up,
  waits until all workers are idle and fails with the same error.

  A look at the flag and the sweep after it are two steps, and so is every cancellation, so
  that anything may happen in between.

  * `Pool`: the chains and their workers;
  * `Pool.Step`: one step of a chain or of the caller;
  * `Pool.Sound`: what a stage of a chain tells about the chain by itself;
  * `Pool.sound_enter`, `sound_look`, `sound_sweep`: the steps of a chain keep to it.
-/
import Gibbs.Chain.Many
import Mathlib.Logic.Relation

namespace Gibbs

variable {σ : Type}

/-- Chains of one transition that are asked for the same number of draws, with their starts
    and their randomness, and a number of workers. -/
structure Pool (σ : Type) where
  step : State → Sampling σ State
  sched : Schedule
  count : Value
  workers : Nat
  chains : List (State × σ)

namespace Pool

/-! ## Stages and configurations -/

/-- A chain between two sweeps. -/
structure Moment (σ : Type) where
  sweeps : Nat
  draws : List State
  state : State
  left : σ

/-- How far a chain is. -/
inductive Stage (σ : Type) where
  /-- in the queue -/
  | waiting
  /-- taken up by a worker -/
  | entered
  /-- about to look at the flag -/
  | checking (m : Moment σ)
  /-- about to sweep, after the flag was seen down -/
  | sweeping (m : Moment σ)
  /-- done with these draws, which the flag may have cut short -/
  | ended (draws : List State) (cut : Bool)
  | failed (e : Error)
  | cancelled

/-- Whether a chain occupies a worker. -/
def Stage.busy : Stage σ → Bool
  | entered | checking _ | sweeping _ => true
  | waiting | ended _ _ | failed _ | cancelled => false

/-- The cancellation of a chain: it has no effect once a worker has taken the chain up. -/
def Stage.cancel : Stage σ → Stage σ
  | waiting => cancelled
  | g => g

/-- How far the caller is. -/
inductive Caller where
  /-- waits for the next chain, with the results of the chains before it -/
  | collecting (results : List (List State))
  /-- has met the error of a chain -/
  | caught (e : Error)
  /-- has raised the flag and cancelled the chains before `next` -/
  | cancelling (e : Error) (next : Nat)
  | answered (o : Outcome (List (List State)))

/-- The stages of all chains, the flag and the caller. -/
structure Config (σ : Type) where
  stages : List (Stage σ)
  stop : Bool
  caller : Caller

namespace Config

/-- The number of occupied workers. -/
def busy (c : Config σ) : Nat := c.stages.countP Stage.busy

/-- A chain goes to a stage. -/
def setStage (c : Config σ) (i : Nat) (g : Stage σ) : Config σ :=
  { c with stages := c.stages.set i g }

end Config

/-! ## Steps -/

variable (P : Pool σ)

/-- A chain by itself. -/
def chain (x : State × σ) : ChainEnd σ := (Rule.count P.count).run P.step P.sched x.1 x.2

/-- The chains one after the other. -/
def inOrder : Outcome (List (List State)) := (runInOrder (fun s r => P.chain (s, r)) P.chains).1

/-- What a chain does when it is taken up: no draws take no sweeps, and no look at the flag. -/
def enter (x : State × σ) : Stage σ :=
  match P.count.truncated with
  | .error f => .failed f
  | .ok _ => if P.count.equalsCount 0 then .ended [] false else .checking ⟨0, [], x.1, x.2⟩

/-- One sweep of a chain. -/
def sweep (m : Moment σ) : Stage σ :=
  match (P.step m.state).outcome m.left with
  | (.error e, _) => .failed e
  | (.ok s, r) =>
    let draws := Chain.keep P.sched (m.sweeps + 1) m.draws s
    if P.count.equalsCount draws.length then .ended draws false
    else .checking ⟨m.sweeps + 1, draws, s, r⟩

/-- One look at the flag. -/
def look (stop : Bool) (m : Moment σ) : Stage σ :=
  if stop then .ended m.draws true else .sweeping m

/-- All chains are in the queue, and the caller waits for the first one. -/
def initial : Config σ := ⟨P.chains.map fun _ => .waiting, false, .collecting []⟩

/-- One step of a chain or of the caller. -/
inductive Step : Config σ → Config σ → Prop where
  /-- a free worker takes up the first chain of the queue -/
  | start {c : Config σ} {i : Nat} (hi : c.stages[i]? = some .waiting)
      (first : ∀ j < i, c.stages[j]? ≠ some .waiting) (free : c.busy < P.workers) :
      Step c (c.setStage i .entered)
  | enter {c : Config σ} {i : Nat} {x : State × σ} (hi : c.stages[i]? = some .entered)
      (hx : P.chains[i]? = some x) : Step c (c.setStage i (P.enter x))
  | look {c : Config σ} {i : Nat} {m : Moment σ} (hi : c.stages[i]? = some (.checking m)) :
      Step c (c.setStage i (look c.stop m))
  | sweep {c : Config σ} {i : Nat} {m : Moment σ} (hi : c.stages[i]? = some (.sweeping m)) :
      Step c (c.setStage i (P.sweep m))
  /-- the caller gets the draws that it waits for; it does not see whether they were cut -/
  | collect {c : Config σ} {results : List (List State)} {draws : List State} {cut : Bool}
      (hc : c.caller = .collecting results)
      (hi : c.stages[results.length]? = some (.ended draws cut)) :
      Step c { c with caller := .collecting (results ++ [draws]) }
  /-- the caller gets the error that it waits for -/
  | meet {c : Config σ} {results : List (List State)} {e : Error}
      (hc : c.caller = .collecting results) (hi : c.stages[results.length]? = some (.failed e)) :
      Step c { c with caller := .caught e }
  | finish {c : Config σ} {results : List (List State)} (hc : c.caller = .collecting results)
      (hl : results.length = c.stages.length) :
      Step c { c with caller := .answered (.finished results) }
  | halt {c : Config σ} {e : Error} (hc : c.caller = .caught e) :
      Step c { c with stop := true, caller := .cancelling e 0 }
  | cancel {c : Config σ} {e : Error} {i : Nat} {g : Stage σ} (hc : c.caller = .cancelling e i)
      (hi : c.stages[i]? = some g) :
      Step c { c.setStage i g.cancel with caller := .cancelling e (i + 1) }
  /-- the caller fails once all workers are idle -/
  | fail {c : Config σ} {e : Error} {i : Nat} (hc : c.caller = .cancelling e i)
      (hl : c.stages.length ≤ i) (idle : c.busy = 0) :
      Step c { c with caller := .answered (.failed e) }

/-- The configurations that some interleaving leads to. -/
def Reaches (c : Config σ) : Prop := Relation.ReflTransGen P.Step P.initial c

/-! ## Chains in a pool and by themselves -/

/-- The number of sweeps that are looked at of a chain by itself. -/
def total : Nat :=
  match P.count.truncated with
  | .ok k => Rule.sweepBound P.count P.sched k.toNat
  | .error _ => 0

/-- What becomes of a chain that goes on by itself. -/
def rest (m : Moment σ) : Outcome (List State) :=
  (Chain.run P.step P.sched (Rule.countReached P.count) (P.total - m.sweeps) m.sweeps m.draws
    m.state m.left).outcome

/-- **What a stage tells about the chain by itself**: a chain on its way goes on to what it
    makes by itself, and one that is done has made it, except that the flag may have cut it
    short. -/
def Sound (x : State × σ) (stop : Bool) : Stage σ → Prop
  | .waiting | .entered => True
  | .checking m | .sweeping m => P.rest m = (P.chain x).outcome
  | .ended draws false => (P.chain x).outcome = .finished draws
  | .failed e => (P.chain x).outcome = .failed e
  | .ended _ true | .cancelled => stop = true

variable {P} {x : State × σ} {stop : Bool} {m : Moment σ}

/-- What is known stays known when the flag goes up. -/
theorem Sound.halt {g : Stage σ} (h : P.Sound x stop g) : P.Sound x true g := by
  cases g with
  | ended draws cut => cases cut with
    | false => exact h
    | true => rfl
  | cancelled => rfl
  | waiting | entered => trivial
  | checking | sweeping | failed => exact h

theorem sound_enter (x : State × σ) (stop : Bool) : P.Sound x stop (P.enter x) := by
  unfold enter
  rcases ht : P.count.truncated with f | k
  · simp only [Sound, chain, Rule.run, ht]
  · dsimp only
    split
    · next h0 => simp only [Sound, chain, Rule.run, ht, h0, if_true]
    · next h0 =>
      simp only [Sound, rest, total, chain, Rule.run, ht, h0, if_false, Bool.false_eq_true,
        Nat.sub_zero]

theorem sound_look (h : P.Sound x stop (.checking m)) : P.Sound x stop (look stop m) := by
  unfold look
  split
  · next hs => exact hs
  · exact h

/-- A chain by itself that comes to an end still has sweeps to make. -/
theorem sweeps_lt_total (hx : (P.chain x).outcome ≠ .running)
    (h : P.Sound x stop (.sweeping m)) : m.sweeps < P.total := by
  refine Nat.lt_of_not_le fun hm => hx ?_
  have hrest : P.rest m = (P.chain x).outcome := h
  rw [← hrest, rest, Nat.sub_eq_zero_of_le hm]; rfl

/-- **A sweep in the pool** is the sweep that the chain makes by itself. -/
theorem sound_sweep (hx : (P.chain x).outcome ≠ .running) (h : P.Sound x stop (.sweeping m)) :
    P.Sound x stop (P.sweep m) := by
  have hlt := sweeps_lt_total hx h
  obtain ⟨fuel, hfuel⟩ : ∃ fuel, P.total - m.sweeps = fuel + 1 :=
    ⟨P.total - m.sweeps - 1, by omega⟩
  have hfuel' : P.total - (m.sweeps + 1) = fuel := by omega
  have hrest : P.rest m = (P.chain x).outcome := h
  rw [rest, hfuel, Chain.run] at hrest
  unfold sweep
  rcases hs : (P.step m.state).outcome m.left with ⟨e | s, r⟩
  · simp only [hs] at hrest
    exact hrest.symm
  · simp only [hs, Rule.countReached] at hrest
    dsimp only
    split
    · next hd =>
      rw [hd] at hrest
      exact hrest.symm
    · next hd =>
      rw [Bool.not_eq_true] at hd
      rw [hd] at hrest
      show P.rest _ = _
      rw [rest, hfuel']
      exact hrest

end Pool

end Gibbs
