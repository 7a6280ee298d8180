/-
  Invariants of chains, and runs of which no sweep fails.

  What every sweep preserves holds of every state of a chain, so of every kept one.  A run of
  which no sweep fails finishes, and its chains are the kept states of each stream.

  * `Chain.after_invariant`, `Chain.recorded_invariant`: from one sweep to all of them;
  * `Sampler.outcome_of_after`: a run of which no sweep fails.
-/
import Gibbs.Proofs.Chain.Prepared
import Gibbs.Proofs.Chain.Trajectory
import Gibbs.Proofs.List
import Gibbs.Proofs.Stream.Sampling

namespace Gibbs

/-! ## Invariants -/

namespace Chain

variable {σ : Type} {step : State → Sampling σ State} {sched : Schedule} {start : State} {r : σ}
  {P : State → Prop}

/-- **What every sweep preserves** holds after any number of sweeps. -/
theorem after_invariant (hstep : ∀ s, P s → (step s).Gives P) (hstart : P start) :
    ∀ {k : Nat} {s : State} {r' : σ}, after step start r k = (.ok s, r') → P s
  | 0, s, r', h => by cases h; exact hstart
  | k + 1, s, r', h => by
    obtain ⟨t, q, ht⟩ := after_ok_of_le h (Nat.le_succ k)
    exact hstep t (after_invariant hstep hstart ht) q s r' ((after_succ ht).symm.trans h)

theorem recorded_invariant (hstep : ∀ s, P s → (step s).Gives P) (hstart : P start) {k : Nat} :
    ∀ s ∈ recorded step sched start r k, P s := by
  intro s hs
  obtain ⟨j, -, hj⟩ := List.mem_filterMap.1 hs
  rcases h : after step start r j with ⟨e | t, q⟩
  · rw [h] at hj; cases hj
  · rw [h] at hj; cases hj
    exact after_invariant hstep hstart h

end Chain

/-! ## Runs of which no sweep fails -/

theorem length_chainStreams (g : Stream) (C : Nat) : (chainStreams g C).length = C := by
  unfold chainStreams
  split
  · next h => rw [h]; rfl
  · simp [Stream.spawn]

namespace Sampler

variable {s : Sampler} {p : Plan Stream} {source : Source} {C N : Nat} {g : Stream}
  {start : State} {sched : Schedule} {n : Value}

/-- **A run of which no sweep fails** finishes with the kept states of every stream. -/
theorem outcome_of_after
    (h : p.Prepared s.initial source C g (List.replicate C start) sched)
    (hrule : p.rule = .count n) (hn : n.IsInteger N) (hN : 1 ≤ N)
    (hsweeps : ∀ r ∈ chainStreams g C, ∃ u r',
      Chain.after s.step start r (sched.sweepsFor N) = (.ok u, r')) :
    (s.runChains p source).outcome = .finished ((chainStreams g C).map fun r =>
      Chain.recorded s.step sched start r (sched.sweepsFor N)) := by
  have hchains : (((List.replicate C start).zip (chainStreams g C)).map fun q =>
      (s.chain p.rule sched q.1 q.2).outcome)
        = ((chainStreams g C).map fun r =>
            Chain.recorded s.step sched start r (sched.sweepsFor N)).map .finished := by
    have hzip : (List.replicate C start).zip (chainStreams g C)
        = (chainStreams g C).map fun r => (start, r) := by
      rw [← zip_replicate_length, length_chainStreams]
    rw [hzip, List.map_map, List.map_map]
    refine List.map_congr_left fun r hr => ?_
    obtain ⟨u, r', hu⟩ := hsweeps r hr
    simp only [Function.comp_apply, Sampler.chain, hrule, Rule.run_count hn hN,
      Rule.run_countReached hn hN le_rfl hu]
  have hrun := runInOrder_append (m := []) hchains
  rw [List.append_nil] at hrun
  rw [outcome_runChains h, hrun]
  simp [runInOrder, Outcome.andThen, Outcome.ofExcept]

end Sampler

end Gibbs
