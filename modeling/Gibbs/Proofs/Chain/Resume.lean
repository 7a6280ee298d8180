/-
  Chains that are resumed.

  A recorded state is all that a chain needs to go on.  A chain that is cut at a kept sweep and
  resumed from its last draw, on the stream as the first part left it, makes the sweeps that it
  would have made without the cut; it keeps the same ones of them if the second part drops
  all sweeps of the first stride but the last.

  * `Chain.after_add`: sweeps after sweeps;
  * `Rule.run_count_cut`: a chain asked for some draws, as two chains;
  * `chain_resumed`: the same for runs of a single chain on a generator, with a cut chain of
    `sweepCounter` as an example.
-/
import Gibbs.Proofs.Chain.Prepared
import Gibbs.Proofs.Chain.Trajectory

namespace Gibbs

variable {σ : Type}

/-! ## Sweeps after sweeps -/

namespace Chain

variable {step : State → Sampling σ State} {sched : Schedule} {start s : State} {r r' : σ}

/-- **Sweeps after sweeps** are the sweeps from the state and the randomness between them. -/
theorem after_add {k : Nat} (h : after step start r k = (.ok s, r')) (j : Nat) :
    after step start r (k + j) = after step s r' j := by
  induction j with
  | zero => exact h
  | succ j ih => rw [← Nat.add_assoc, after, ih, after]

/-- The last draw after a kept sweep is its state. -/
theorem getLast?_recorded {k : Nat} (hk : sched.keeps k = true) (hpos : 0 < k)
    (h : after step start r k = (.ok s, r')) :
    (recorded step sched start r k).getLast? = some s := by
  obtain ⟨k, rfl⟩ := Nat.exists_eq_succ_of_ne_zero (Nat.ne_of_gt hpos)
  rw [recorded_succ h, keep, if_pos hk, List.getLast?_concat]

end Chain

/-! ## A number of draws -/

namespace Schedule

/-- **The sweeps of a cut chain:** after the sweeps for `N` draws, the sweeps for `M` more ones
    are those of a schedule that drops all but the last sweep of a stride. -/
theorem sweepsFor_add {d t N M : Nat} (ht : 1 ≤ t) (hN : 1 ≤ N) (hM : 1 ≤ M) :
    (ofInts d t).sweepsFor (N + M)
      = (ofInts d t).sweepsFor N + (ofInts (t - 1 : Nat) t).sweepsFor M := by
  obtain ⟨N, rfl⟩ := Nat.exists_eq_add_of_le' hN
  obtain ⟨M, rfl⟩ := Nat.exists_eq_add_of_le' hM
  rw [sweepsFor_ofInts ht, sweepsFor_ofInts ht, sweepsFor_ofInts ht,
    show N + 1 + (M + 1) - 1 = N + 1 + M by omega, Nat.add_sub_cancel, Nat.add_sub_cancel,
    Nat.add_mul, Nat.add_mul, Nat.one_mul]
  omega

end Schedule

namespace Rule

open Chain

variable {step : State → Sampling σ State} {start : State} {r : σ} {n m w : Value}
  {N M d t : Nat}

/-- The draws of a chain that is cut after `N` draws. -/
theorem recorded_cut (ht : 1 ≤ t) (hN : 1 ≤ N) (hM : 1 ≤ M) {u v : State} {q r' : σ}
    (hu : after step start r ((Schedule.ofInts d t).sweepsFor N) = (.ok u, q))
    (hv : after step u q ((Schedule.ofInts (t - 1 : Nat) t).sweepsFor M) = (.ok v, r')) :
    recorded step (.ofInts d t) start r ((Schedule.ofInts d t).sweepsFor (N + M))
      = recorded step (.ofInts d t) start r ((Schedule.ofInts d t).sweepsFor N)
        ++ recorded step (.ofInts (t - 1 : Nat) t) u q
            ((Schedule.ofInts (t - 1 : Nat) t).sweepsFor M) := by
  have hd : (Schedule.ofInts d t).discard = d := Int.toNat_natCast d
  have hd' : (Schedule.ofInts (t - 1 : Nat) t).discard = t - 1 := Int.toNat_natCast (t - 1)
  have htt : ∀ k : Nat, (Schedule.ofInts k t).thin = t := fun k => by
    simp only [Schedule.ofInts]; omega
  have hall := after_add hu ((Schedule.ofInts (t - 1 : Nat) t).sweepsFor M)
  rw [hv, ← Schedule.sweepsFor_add ht hN hM] at hall
  refine (List.map_inj_right (f := Except.ok (ε := Error)) fun _ _ => Except.ok.inj).1 ?_
  rw [List.map_append, recorded_eq hall, recorded_eq hu, recorded_eq hv,
    Schedule.keptCount_sweepsFor hN, Schedule.keptCount_sweepsFor hM,
    Schedule.keptCount_sweepsFor (Nat.le_add_right_of_le hN), List.range_add, List.map_append,
    List.map_map]
  congr 1
  refine List.map_congr_left fun i _ => ?_
  -- the kept sweep `i` of the second part, counted from the start of the first one
  have hsweep : (Schedule.ofInts d t).sweepsFor N + (t - 1 + 1 + i * t) = d + 1 + (N + i) * t := by
    obtain ⟨N, rfl⟩ := Nat.exists_eq_add_of_le' hN
    rw [Schedule.sweepsFor_ofInts ht, Nat.add_sub_cancel, Nat.add_mul, Nat.add_mul, Nat.one_mul]
    omega
  simp only [Function.comp_apply, hd, hd', htt, ← hsweep, after_add hu]

/-- **A chain asked for `N + M` draws** is a chain asked for `N` draws and, from its last draw
    on, one asked for `M` draws, which drops all but the last sweep of its first stride.  The
    second part begins with the randomness that the first one leaves, and if a sweep of the
    first part fails, then it is the failure of the whole. -/
theorem run_count_cut (step : State → Sampling σ State) (start : State) (r : σ)
    (hn : n.IsInteger N) (hm : m.IsInteger M) (hw : w.IsInteger (N + M : Nat))
    (hN : 1 ≤ N) (hM : 1 ≤ M) (ht : 1 ≤ t) :
    (∃ draws u q k, (count n).run step (.ofInts d t) start r = ⟨.finished draws, q, k⟩ ∧
      draws.getLast? = some u ∧
      (count w).run step (.ofInts d t) start r
        = ⟨((count m).run step (.ofInts (t - 1 : Nat) t) u q).outcome.andThen
              fun more => .ok (draws ++ more),
            ((count m).run step (.ofInts (t - 1 : Nat) t) u q).left,
            k + ((count m).run step (.ofInts (t - 1 : Nat) t) u q).sweeps⟩) ∨
    ∃ e q k, (count n).run step (.ofInts d t) start r = ⟨.failed e, q, k⟩ ∧
      (count w).run step (.ofInts d t) start r = ⟨.failed e, q, k⟩ := by
  have hNM : 1 ≤ N + M := Nat.le_add_right_of_le hN
  have hsum := Schedule.sweepsFor_add (d := d) ht hN hM
  rw [run_count hn hN, run_count hw hNM]
  rcases hu : after step start r ((Schedule.ofInts d t).sweepsFor N) with ⟨e | u, q⟩
  · obtain ⟨k, hk, s, q', hs, he⟩ := exists_first_failure hu
    refine .inr ⟨e, q, k, run_countReached_failed hn hN le_rfl hk hs he, ?_⟩
    exact run_countReached_failed hw hNM le_rfl (by omega) hs he
  refine .inl ⟨_, u, q, _, run_countReached hn hN le_rfl hu,
    getLast?_recorded (Schedule.keeps_sweepsFor _ N) (Nat.succ_pos _) hu, ?_⟩
  have hall := after_add hu ((Schedule.ofInts (t - 1 : Nat) t).sweepsFor M)
  rw [run_count hm hM]
  rcases hv : after step u q ((Schedule.ofInts (t - 1 : Nat) t).sweepsFor M) with ⟨e | v, r'⟩
  · obtain ⟨k, hk, s, q', hs, he⟩ := exists_first_failure hv
    have hs' := (after_add hu k).trans hs
    rw [run_countReached_failed hm hM le_rfl hk hs he,
      run_countReached_failed hw hNM le_rfl (by omega) hs' he]
    rfl
  · rw [hv, ← hsum] at hall
    rw [run_countReached hm hM le_rfl hv, run_countReached hw hNM le_rfl hall,
      recorded_cut ht hN hM hu hv, hsum]
    rfl

end Rule

/-! ## Runs of a single chain -/

/-- The generator that a source is, if it is one: it goes on where the run before it stopped. -/
def Source.generator? : Source → Option Stream
  | stream g => some g
  | ambient g => some g
  | _ => none

namespace Source

variable {source : Source} {g : Stream}

theorem openStream_of_generator? (h : source.generator? = some g) : source.openStream = .ok g := by
  cases source with
  | stream s => cases h; rfl
  | ambient s => cases h; rfl
  | _ => cases h

/-- **A generator after a run** is the generator as the run left it. -/
theorem generator?_close (h : source.generator? = some g) (left : Stream) :
    (source.close left).generator? = some left := by
  cases source with
  | stream s => rfl
  | ambient s => rfl
  | _ => cases h

theorem close_close (h : source.generator? = some g) (a b : Stream) :
    (source.close a).close b = source.close b := by
  cases source with
  | stream s => rfl
  | ambient s => rfl
  | _ => cases h

end Source

/-- **A chain can be resumed.**  Let a run of a single chain be asked for `N` draws and another
    one, with the same dropped sweeps `d`, distance `t` and start on the same generator, for
    `N + M` draws.  If a sweep of the first run fails, then the joint run fails with the same
    error.  Otherwise the first run has a last draw, and a run for `M` draws that starts from it,
    on the generator as the first run left it, with `t - 1` dropped sweeps and the distance `t`,
    goes on as the joint run does: it leaves the generator at the same place, and either its
    draws are those that the joint run has after the draws of the first one, or both fail with
    the same error. -/
theorem chain_resumed (s : Sampler) {source : Source} {g : Stream}
    (hg : source.generator? = some g) {p q w : Plan Stream} {n m k : Value} {N M d t : Nat}
    (hp : p.InRange n N 1 d t) (hq : q.InRange m M 1 (t - 1) t) (hw : w.InRange k (N + M) 1 d t)
    (hN : 1 ≤ N) (hM : 1 ≤ M) {start : State} (hps : p.startStates s.initial 1 = .ok [start])
    (hws : w.startStates s.initial 1 = .ok [start]) :
    (∃ draws u, (s.runChains p source).outcome = .finished [draws] ∧ draws.getLast? = some u ∧
      (q.startStates s.initial 1 = .ok [u] →
        (s.runChains q (s.runChains p source).source).source = (s.runChains w source).source ∧
        ((∃ more, (s.runChains q (s.runChains p source).source).outcome = .finished [more] ∧
            (s.runChains w source).outcome = .finished [draws ++ more]) ∨
          ∃ e, (s.runChains q (s.runChains p source).source).outcome = .failed e ∧
            (s.runChains w source).outcome = .failed e))) ∨
    ∃ e, (s.runChains p source).outcome = .failed e ∧ (s.runChains w source).outcome = .failed e ∧
      (s.runChains p source).source = (s.runChains w source).source := by
  have hopen := Source.openStream_of_generator? hg
  have hP := hp.prepared hopen hps
  have hW := hw.prepared hopen hws
  rw [Sampler.outcome_runChains_one hP, Sampler.source_runChains_one hP,
    Sampler.outcome_runChains_one hW, Sampler.source_runChains_one hW, hp.rule, hw.rule]
  simp only [Sampler.chain]
  rcases Rule.run_count_cut s.step start g (d := d) hp.draws hq.draws hw.draws hN hM
      hp.one_le_thin with ⟨draws, u, left, sweeps, hfirst, hlast, hall⟩ |
      ⟨e, left, sweeps, hfirst, hall⟩
  · rw [hfirst, hall]
    refine .inl ⟨draws, u, rfl, hlast, fun hqs => ?_⟩
    have hQ := hq.prepared
      (Source.openStream_of_generator? (Source.generator?_close hg left)) hqs
    rw [Sampler.outcome_runChains_one hQ, Sampler.source_runChains_one hQ, hq.rule,
      Source.close_close hg]
    refine ⟨rfl, ?_⟩
    simp only [Sampler.chain]
    cases hmore : ((Rule.count m).run s.step (.ofInts (t - 1 : Nat) t) u left).outcome with
    | finished more => exact .inl ⟨more, rfl, rfl⟩
    | failed e => exact .inr ⟨e, rfl, rfl⟩
    | running => exact absurd hmore (Rule.run_count_ends hq.draws)
  · rw [hfirst, hall]
    exact .inr ⟨e, rfl, rfl, rfl⟩

/-- A single chain of which, after some dropped sweeps, every second sweep is kept. -/
def everySecond (draws discard : Int) (start : State) : Plan Stream where
  rule := .count (.int draws)
  chains := .int 1
  thin := .int 2
  discard := .int discard
  workers? := none
  parallel := false
  starts := .shared start

theorem everySecond_inRange (draws discard : Nat) (start : State) :
    (everySecond draws discard start).InRange (.int draws) draws 1 discard 2 where
  rule := rfl
  draws := Value.isInteger_int draws
  chains := Value.isInteger_int 1
  one_le_chains := le_rfl
  discard := Value.isInteger_int discard
  thin := Value.isInteger_int 2
  one_le_thin := by decide
  workers := nofun

/-- Three draws, cut after the second one: the second run reads on where the first one stopped. -/
theorem sweepCounter_resumed :
    (Source.stream numberTape).generator? = some numberTape ∧
    (everySecond 2 0 (counted 0 0.0)).InRange (.int 2) 2 1 0 2 ∧
    (everySecond 1 1 (counted 3 0.75)).InRange (.int 1) 1 1 1 2 ∧
    (everySecond 3 0 (counted 0 0.0)).InRange (.int 3) 3 1 0 2 ∧ 1 ≤ 2 ∧ 1 ≤ 1 ∧
    (sweepCounter.runChains (everySecond 2 0 (counted 0 0.0)) (.stream numberTape)).outcome
      = .finished [[counted 1 0.25, counted 3 0.75]] ∧
    (sweepCounter.runChains (everySecond 2 0 (counted 0 0.0)) (.stream numberTape)).source
      = .stream (numberTape.afterUniform 3) ∧
    (sweepCounter.runChains (everySecond 1 1 (counted 3 0.75))
        (.stream (numberTape.afterUniform 3))).outcome
      = .finished [[counted 5 1.25]] ∧
    (sweepCounter.runChains (everySecond 3 0 (counted 0 0.0)) (.stream numberTape)).outcome
      = .finished [[counted 1 0.25, counted 3 0.75, counted 5 1.25]] := by
  have hp := everySecond_inRange 2 0 (counted 0 0.0)
  have hq := everySecond_inRange 1 1 (counted 3 0.75)
  have hw := everySecond_inRange 3 0 (counted 0 0.0)
  refine ⟨rfl, hp, hq, hw, by decide, le_rfl, rfl, rfl, rfl, ?_⟩
  have hg : (Source.stream numberTape).generator? = some numberTape := rfl
  have hps : (everySecond 2 0 (counted 0 0.0)).startStates sweepCounter.initial 1
      = .ok [counted 0 0.0] := rfl
  rcases chain_resumed sweepCounter hg hp hq hw (by decide) le_rfl hps rfl with
    ⟨draws, u, hfirst, hlast, h⟩ | ⟨e, hfirst, -⟩
  · obtain rfl : [counted 1 0.25, counted 3 0.75] = draws := by
      have hdraws : Outcome.finished [[counted 1 0.25, counted 3 0.75]] = .finished [draws] :=
        hfirst
      cases hdraws; rfl
    obtain rfl : counted 3 0.75 = u := Option.some.inj hlast
    rcases (h rfl).2 with ⟨more, hmore, hall⟩ | ⟨e, hfail, -⟩
    · have hread : Outcome.finished [[counted 5 1.25]] = .finished [more] := hmore
      cases hread
      exact hall
    · cases hfail
  · cases hfirst

end Gibbs
