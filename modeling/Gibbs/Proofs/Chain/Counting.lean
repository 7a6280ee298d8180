/-
  Numbers of draws: which of them a run ever has.

  The number of chains, the number of dropped sweeps and the distance of kept ones are cut to
  integers, but the number of draws is compared as it is given with the draws kept so far.  So
  a run that is asked for a whole number of draws ends with them, and a run that is asked for
  any other number goes on for ever.

  * `Rule.run_count_congr`: numbers that are the same count make the same chains;
  * `Rule.run_unreached`: a chain asked for a number of draws that it never has;
  * `Plan.IsFinite`, `Plan.Cut`: plans whose counts are finite numbers, and the integers that
    these are cut to; `Plan.IsFinite.exists_cut`: the checks make them fit;
  * `Sampler.chain_of_whole`: a chain asked for a whole number of draws;
  * `whole_counts_end`: runs asked for a finite number of draws, with `sweepCounter` as an
    example.
-/
import Gibbs.Proofs.Chain.Invariant
import Gibbs.Proofs.Finite

namespace Gibbs

/-! ## Chains -/

/-- No sweep of a chain ever fails. -/
def Chain.Unfailing {σ : Type} (step : State → Sampling σ State) (start : State) (r : σ) : Prop :=
  ∀ k, ∃ u r', after step start r k = (.ok u, r')

namespace Rule

open Chain

variable {σ : Type} {step : State → Sampling σ State} {sched : Schedule} {start : State} {r : σ}
  {n m : Value}

theorem countReached_congr (he : ∀ k, n.equalsCount k = m.equalsCount k) :
    (countReached n : Question σ) = countReached m := by
  funext r draws s k
  rw [countReached, countReached, he]

/-- **Numbers that are the same count** make the same chains. -/
theorem run_count_congr (ht : n.truncated = m.truncated)
    (he : ∀ k, n.equalsCount k = m.equalsCount k) :
    (count n).run step sched start r = (count m).run step sched start r := by
  simp only [run, sweepBound, ht, he, countReached_congr he]

/-- **A chain asked for a number of draws that it never has** is still running after any
    number of sweeps. -/
theorem run_unreached (hn : ∀ k, n.equalsCount k = false) {fuel : Nat} {u : State} {r' : σ}
    (h : after step start r fuel = (.ok u, r')) :
    Chain.run step sched (countReached n) fuel 0 [] start r = ⟨.running, r', fuel⟩ :=
  run_after 0 h fun j t q _ _ => by rw [countReached, hn]

end Rule

/-! ## Plans -/

namespace Plan

variable {σ : Type}

/-- A plan for a number of draws whose counts are finite numbers. -/
structure IsFinite (p : Plan σ) (n : Value) : Prop where
  rule : p.rule = .count n
  draws : n.isFinite = true
  chains : p.chains.isFinite = true
  discard : p.discard.isFinite = true
  thin : p.thin.isFinite = true
  workers : ∀ w, p.workers? = some w → w.isFinite = true

/-- The integers that the counts of a plan are cut to: `C` chains of `N` draws each, with `d`
    dropped sweeps and a distance of `t`. -/
structure Cut (p : Plan σ) (n : Value) (N C d t : Nat) : Prop where
  draws : n.truncated = .ok (N : Int)
  chains : p.chains.truncated = .ok (C : Int)
  one_le_chains : 1 ≤ C
  discard : p.discard.truncated = .ok (d : Int)
  thin : p.thin.truncated = .ok (t : Int)
  one_le_thin : 1 ≤ t
  workers : ∀ w, p.workers? = some w → ∃ W : Nat, 1 ≤ W ∧ w.truncated = .ok (W : Int)

/-- **Finite numbers in their ranges** are cut to integers in these ranges. -/
theorem IsFinite.exists_cut {p : Plan σ} {n : Value} (h : p.IsFinite n)
    (hcheck : p.check = .ok ()) : ∃ N C d t, p.Cut n N C d t := by
  obtain ⟨hchains, hthin, hdiscard, hrule, hworkers⟩ := check_eq_ok.1 hcheck
  have hdraws : n.lessThan 0 = .ok false := by
    rw [checkRule, h.rule] at hrule
    exact atLeast_eq_ok.1 hrule
  obtain ⟨N, hN⟩ := Value.exists_truncated h.draws hdraws
  obtain ⟨C, hC1, hC⟩ := Value.exists_truncated_pos h.chains hchains
  obtain ⟨d, hd⟩ := Value.exists_truncated h.discard hdiscard
  obtain ⟨t, ht1, ht⟩ := Value.exists_truncated_pos h.thin hthin
  exact ⟨N, C, d, t, hN, hC, hC1, hd, ht, ht1, fun w hw =>
    Value.exists_truncated_pos (h.workers w hw) (hworkers w hw)⟩

theorem Cut.workerCount {p : Plan σ} {n : Value} {N C d t : Nat} (h : p.Cut n N C d t) :
    ∃ workers, p.workerCount C = .ok workers := by
  unfold Plan.workerCount
  split
  · exact ⟨C, rfl⟩
  · next w hw =>
    obtain ⟨W, -, hW⟩ := h.workers w hw
    exact ⟨min W C, by rw [hW]; rfl⟩

theorem Cut.prepared {p : Plan Stream} {n : Value} {N C d t : Nat} (h : p.Cut n N C d t)
    (hcheck : p.check = .ok ()) {initial : State} {source : Source} {g : Stream}
    {starts : List State} (hg : source.openStream = .ok g)
    (hs : p.startStates initial C = .ok starts) :
    p.Prepared initial source C g starts (.ofInts d t) where
  check := hcheck
  chainCount := by rw [chainCount, h.chains]; rfl
  openStream := hg
  startStates := hs
  schedule := by rw [schedule, h.discard, h.thin]; rfl
  announcements := by
    obtain ⟨workers, hw⟩ := h.workerCount
    exact Sampler.exists_announcements hw

end Plan

/-! ## Runs -/

/-- Chains that all finish with draws of some property. -/
theorem runInOrder_of_finished {σ : Type} {run : State → σ → ChainEnd σ} {P : List State → Prop} :
    ∀ {l : List (State × σ)},
      (∀ q ∈ l, ∃ draws, P draws ∧ (run q.1 q.2).outcome = .finished draws) →
      ∃ chains, (runInOrder run l).1 = .finished chains ∧ chains.length = l.length ∧
        ∀ draws ∈ chains, P draws
  | [], _ => ⟨[], rfl, rfl, by simp⟩
  | (s, r) :: l, h => by
    obtain ⟨draws, hdraws, hr⟩ := h (s, r) List.mem_cons_self
    obtain ⟨chains, hl, hlength, hchains⟩ :=
      runInOrder_of_finished fun q hq => h q (List.mem_cons_of_mem _ hq)
    refine ⟨draws :: chains, ?_, congrArg (· + 1) hlength, List.forall_mem_cons.2 ⟨hdraws, hchains⟩⟩
    simp only [runInOrder, hr, hl, Outcome.andThen, Outcome.ofExcept]

namespace Sampler

variable {s : Sampler} {start : State} {r : Stream} {n : Value} {N d t : Nat}

/-- **A chain asked for a whole number of draws** has them after the announced number of
    sweeps, and needs no bound to stop there. -/
theorem chain_of_whole (hfinite : n.isFinite = true) (hn : n.truncated = .ok (N : Int))
    (hwhole : n.equalsCount N = true) (ht : 1 ≤ t) (h : Chain.Unfailing s.step start r) :
    ∃ draws left, draws.length = N ∧
      s.chain (.count n) (.ofInts d t) start r
        = ⟨.finished draws, left, if N = 0 then 0 else d + (N - 1) * t + 1⟩ ∧
      ∀ fuel, 1 ≤ N → d + (N - 1) * t + 1 ≤ fuel →
        Chain.run s.step (.ofInts d t) (Rule.countReached n) fuel 0 [] start r
          = s.chain (.count n) (.ofInts d t) start r := by
  have hN := Value.isInteger_int (N : Int)
  have hcount : ∀ k, n.equalsCount k = (Value.int N).equalsCount k := fun k => by
    rw [Value.equalsCount_unique hfinite hwhole, Value.equalsCount_of_isInteger hN]
  have hchain : s.chain (.count n) (.ofInts d t) start r
      = (Rule.count (.int N)).run s.step (.ofInts d t) start r :=
    Rule.run_count_congr (hn.trans (Value.truncated_of_isInteger hN).symm) hcount
  rw [hchain, Rule.countReached_congr hcount]
  rcases Nat.eq_zero_or_pos N with rfl | hpos
  · exact ⟨[], r, rfl, Rule.run_count_zero hN, fun fuel h0 => absurd h0 (by decide)⟩
  · rw [if_neg (by omega), ← Schedule.sweepsFor_ofInts ht]
    obtain ⟨u, r', hu⟩ := h ((Schedule.ofInts d t).sweepsFor N)
    rw [Rule.run_count hN hpos]
    refine ⟨_, r', ?_, Rule.run_countReached hN hpos le_rfl hu, fun fuel _ hfuel => ?_⟩
    · rw [Chain.length_recorded hu, Schedule.keptCount_sweepsFor hpos]
    · rw [Rule.run_countReached hN hpos hfuel hu, Rule.run_countReached hN hpos le_rfl hu]

/-- **A chain asked for a number of draws that is not whole** is never done. -/
theorem chain_of_fraction {sched : Schedule} (hn : n.truncated = .ok (N : Int))
    (hfraction : ∀ k, n.equalsCount k = false) (h : Chain.Unfailing s.step start r) :
    (s.chain (.count n) sched start r).outcome = .running := by
  obtain ⟨u, r', hu⟩ := h (Rule.sweepBound n sched N)
  simp only [chain, Rule.run, hn, hfraction, Bool.false_eq_true, if_false, Int.toNat_natCast,
    Rule.run_unreached hfraction hu]

end Sampler

/-- **Runs of which no sweep fails.**  Counts that are finite numbers in their ranges are cut
    to integers in these ranges.  If the number of draws is whole, every chain stops after the
    announced number of sweeps, whatever bound there is on them, and the run finishes with
    that many draws of every chain.  Otherwise every chain, and with them the run, goes on
    for ever. -/
theorem whole_counts_end {p : Plan Stream} {n : Value} (hfinite : p.IsFinite n)
    (hcheck : p.check = .ok ()) :
    ∃ N C d t, p.Cut n N C d t ∧
      ∀ (s : Sampler) (source : Source) (g : Stream) (starts : List State),
        source.openStream = .ok g → p.startStates s.initial C = .ok starts →
        (∀ q ∈ starts.zip (chainStreams g C), Chain.Unfailing s.step q.1 q.2) →
        (n.equalsCount N = true →
          (∀ q ∈ starts.zip (chainStreams g C), ∃ draws left, draws.length = N ∧
            s.chain p.rule (.ofInts d t) q.1 q.2
              = ⟨.finished draws, left, if N = 0 then 0 else d + (N - 1) * t + 1⟩ ∧
            ∀ fuel, 1 ≤ N → d + (N - 1) * t + 1 ≤ fuel →
              Chain.run s.step (.ofInts d t) (Rule.countReached n) fuel 0 [] q.1 q.2
                = s.chain p.rule (.ofInts d t) q.1 q.2) ∧
          ∃ chains, (s.runChains p source).outcome = .finished chains ∧ chains.length = C ∧
            ∀ draws ∈ chains, draws.length = N) ∧
        (n.equalsCount N = false →
          (∀ q ∈ starts.zip (chainStreams g C), ∀ fuel, ∃ left,
            Chain.run s.step (.ofInts d t) (Rule.countReached n) fuel 0 [] q.1 q.2
              = ⟨.running, left, fuel⟩) ∧
          (s.runChains p source).outcome = .running) := by
  obtain ⟨N, C, d, t, hcut⟩ := hfinite.exists_cut hcheck
  refine ⟨N, C, d, t, hcut, fun s source g starts hg hstarts hsweeps => ?_⟩
  have hlength : (starts.zip (chainStreams g C)).length = C := by
    rw [List.length_zip, Plan.length_startStates hstarts, length_chainStreams, Nat.min_self]
  rw [Sampler.outcome_runChains (hcut.prepared hcheck hg hstarts), hfinite.rule]
  constructor
  · intro hwhole
    have hchains := fun q hq => Sampler.chain_of_whole (d := d) hfinite.draws hcut.draws hwhole
      hcut.one_le_thin (hsweeps q hq)
    obtain ⟨chains, hrun, hcount, hdraws⟩ := runInOrder_of_finished fun q hq => by
      obtain ⟨draws, left, hdraws, hchain, -⟩ := hchains q hq
      exact ⟨draws, hdraws, congrArg ChainEnd.outcome hchain⟩
    exact ⟨hchains, chains, hrun, hcount.trans hlength, hdraws⟩
  · intro hfraction
    have hnever : ∀ k, n.equalsCount k = false := fun k => by
      by_cases hk : k = N
      · rw [hk, hfraction]
      · exact Value.equalsCount_of_truncated_ne hcut.draws (by omega)
    refine ⟨fun q hq fuel => ?_, ?_⟩
    · obtain ⟨u, left, hu⟩ := hsweeps q hq fuel
      exact ⟨left, Rule.run_unreached hnever hu⟩
    · -- there is a first chain, and it keeps the run from going on to the others
      have hpos : 0 < (starts.zip (chainStreams g C)).length := by
        rw [hlength]; exact hcut.one_le_chains
      obtain ⟨⟨start, r⟩, rest, hq⟩ := List.exists_cons_of_length_pos hpos
      have hfirst : (s.chain (.count n) (.ofInts d t) start r).outcome = .running :=
        Sampler.chain_of_fraction hcut.draws hnever (hsweeps (start, r) (hq ▸ List.mem_cons_self))
      simp only [hq, runInOrder, hfirst]

/-! ## Examples -/

/-- A chain of `sweepCounter` counts its sweeps and reads a number in each of them. -/
theorem after_sweepCounter (i : Int) (t : Float) (r : Stream) : ∀ k : Nat, ∃ u,
    Chain.after sweepCounter.step (counted i t) r k = (.ok (counted (i + k) u), r.afterUniform k)
  | 0 => ⟨t, by rw [Int.natCast_zero, Int.add_zero]; rfl⟩
  | k + 1 => by
    obtain ⟨u, hu⟩ := after_sweepCounter i t r k
    rw [Chain.after_succ hu, outcome_step_sweepCounter, ← Stream.afterUniform_succ,
      Int.natCast_succ, ← Int.add_assoc]
    exact ⟨_, rfl⟩

theorem unfailing_sweepCounter (r : Stream) :
    Chain.Unfailing sweepCounter.step sweepCounter.initial r := by
  intro k
  obtain ⟨u, hu⟩ := after_sweepCounter 0 0.0 r k
  exact ⟨_, _, hu⟩

/-- Two draws of each of two and a half chains, with half a dropped sweep. -/
def halves : Plan Stream :=
  { Plan.ofRule (.count (.float 2.0)) with
    chains := .float 2.5, thin := .float 1.5, discard := .float 0.5 }

/-- The draws are whole, and the other counts are cut. -/
theorem halves_end : halves.IsFinite (.float 2.0) ∧ halves.check = .ok () ∧
    (Value.float 2.0).equalsCount 2 = true ∧
    ∃ chains, (sweepCounter.runChains halves (.stream numberTape)).outcome = .finished chains ∧
      chains.length = 2 ∧ ∀ draws ∈ chains, draws.length = 2 := by
  have hfinite : halves.IsFinite (.float 2.0) :=
    ⟨rfl, by decide, by decide, by decide, by decide, nofun⟩
  have hcheck : halves.check = .ok () := rfl
  have hwhole : (Value.float 2.0).equalsCount 2 = true := by decide
  obtain ⟨N, C, d, t, hcut, hrun⟩ := whole_counts_end hfinite hcheck
  obtain rfl : N = 2 := Int.ofNat.inj (Except.ok.inj hcut.draws.symm)
  obtain rfl : C = 2 := Int.ofNat.inj (Except.ok.inj hcut.chains.symm)
  have hsweeps : ∀ q ∈ (List.replicate 2 sweepCounter.initial).zip (chainStreams numberTape 2),
      Chain.Unfailing sweepCounter.step q.1 q.2 := fun q hq => by
    rw [List.eq_of_mem_replicate (List.of_mem_zip hq).1]
    exact unfailing_sweepCounter q.2
  have hends := (hrun sweepCounter (.stream numberTape) numberTape _ rfl rfl hsweeps).1 hwhole
  exact ⟨hfinite, hcheck, hwhole, hends.2⟩

/-- **A number of draws that is not whole** passes all checks, is cut to two for the announced
    number of sweeps, and is never reached: a chain of which no sweep fails is still running
    after any number of them. -/
theorem fraction_endless :
    (Plan.ofRule (.count (.float 2.5)) : Plan Stream).IsFinite (.float 2.5) ∧
    (Plan.ofRule (.count (.float 2.5)) : Plan Stream).check = .ok () ∧
    (Value.float 2.5).truncated = .ok 2 ∧
    Chain.Unfailing sweepCounter.step sweepCounter.initial numberTape ∧
    ∀ fuel, Chain.run sweepCounter.step (.ofInts 0 1) (Rule.countReached (.float 2.5)) fuel 0 []
      sweepCounter.initial numberTape = ⟨.running, numberTape.afterUniform fuel, fuel⟩ := by
  have hcut : (Value.float 2.5).truncated = .ok 2 := rfl
  have hnever : ∀ k, (Value.float 2.5).equalsCount k = false := fun k => by
    by_cases hk : k = 2
    · rw [hk]; rfl
    · exact Value.equalsCount_of_truncated_ne hcut (by omega)
  refine ⟨⟨rfl, rfl, rfl, rfl, rfl, nofun⟩, rfl, hcut, unfailing_sweepCounter numberTape,
    fun fuel => ?_⟩
  obtain ⟨u, hu⟩ := after_sweepCounter 0 0.0 numberTape fuel
  exact Rule.run_unreached hnever hu

end Gibbs
