/-
  Trajectories: what a chain does, sweep by sweep.

  A chain that is asked for a number of draws makes exactly the sweeps up to the last kept
  one.  Its draws are the states after the kept sweeps, and the first failing sweep is the
  failure of the chain.

  * `Chain.after`: the state after a number of sweeps, or the first failure;
  * `run_after`: a chain that is not done yet goes on from there;
  * `run_countReached`, `run_countReached_failed`: a chain that is asked for a number of
    draws;
  * `chain_schedule`: the same for a chain of a sampler, with the sampler `sweepCounter` as
    an example.
-/
import Gibbs.Chain.Many
import Gibbs.Proofs.Chain.Schedule
import Gibbs.Proofs.Except

namespace Gibbs

variable {σ : Type}

namespace Chain

/-! ## Sweeps in a row -/

/-- The state after `k` sweeps and the randomness that is left; if a sweep fails, its error
    and the randomness it left. -/
def after (step : State → Sampling σ State) (start : State) (r : σ) : Nat → Except Error State × σ
  | 0 => (.ok start, r)
  | k + 1 =>
    match after step start r k with
    | (.ok s, r') => (step s).outcome r'
    | (.error e, r') => (.error e, r')

/-- The states after the kept ones among the first `k` sweeps. -/
def recorded (step : State → Sampling σ State) (sched : Schedule) (start : State) (r : σ)
    (k : Nat) : List State :=
  (sched.kept k).filterMap fun j => (after step start r j).1.toOption

variable {step : State → Sampling σ State} {sched : Schedule} {start : State} {r : σ}

theorem after_succ {k : Nat} {s : State} {r' : σ} (h : after step start r k = (.ok s, r')) :
    after step start r (k + 1) = (step s).outcome r' := by
  rw [after, h]

theorem after_succ_error {k : Nat} {e : Error} {r' : σ}
    (h : after step start r k = (.error e, r')) :
    after step start r (k + 1) = (.error e, r') := by
  rw [after, h]

/-- If `k` sweeps succeed, so do the first ones of them. -/
theorem after_ok_of_le {k : Nat} {s : State} {r' : σ} (h : after step start r k = (.ok s, r'))
    {j : Nat} (hj : j ≤ k) : ∃ t q, after step start r j = (.ok t, q) := by
  induction k generalizing s r' with
  | zero => obtain rfl := Nat.le_zero.1 hj; exact ⟨s, r', h⟩
  | succ k ih =>
    rcases Nat.le_succ_iff.1 hj with hj | rfl
    · rcases hk : after step start r k with ⟨e | t, q⟩
      · rw [after_succ_error hk] at h; cases h
      · exact ih hk hj
    · exact ⟨s, r', h⟩

/-- **The first failing sweep** is the one whose error is left. -/
theorem exists_first_failure {k : Nat} {e : Error} {r' : σ}
    (h : after step start r k = (.error e, r')) :
    ∃ j < k, ∃ s q, after step start r j = (.ok s, q) ∧ (step s).outcome q = (.error e, r') := by
  induction k with
  | zero => cases h
  | succ k ih =>
    rcases hk : after step start r k with ⟨e' | s, q⟩
    · rw [after_succ_error hk] at h
      obtain ⟨j, hj, hs⟩ := ih (hk.trans h)
      exact ⟨j, Nat.lt_succ_of_lt hj, hs⟩
    · exact ⟨k, Nat.lt_succ_self k, s, q, hk, (after_succ hk).symm.trans h⟩

theorem recorded_succ {k : Nat} {s : State} {r' : σ}
    (h : after step start r (k + 1) = (.ok s, r')) :
    recorded step sched start r (k + 1) = keep sched (k + 1) (recorded step sched start r k) s := by
  unfold recorded keep
  rw [Schedule.kept_succ]
  split_ifs
  · simp [h, Except.toOption]
  · rfl

/-- The draws of successful sweeps, one for every kept one. -/
theorem recorded_eq {k : Nat} {s : State} {r' : σ} (h : after step start r k = (.ok s, r')) :
    (recorded step sched start r k).map Except.ok
      = (List.range (sched.keptCount k)).map fun i =>
          (after step start r (sched.discard + 1 + i * sched.thin)).1 := by
  have hk : ∀ j ∈ sched.kept k, ∃ t, (after step start r j).1 = .ok t := by
    intro j hj
    obtain ⟨i, hi, rfl⟩ := List.mem_map.1 (List.mem_filter.1 hj).1
    obtain ⟨t, q, ht⟩ := after_ok_of_le h (List.mem_range.1 hi : i + 1 ≤ k)
    exact ⟨t, by rw [ht]⟩
  rw [recorded, map_ok_filterMap_toOption hk, Schedule.kept_eq, List.map_map]
  rfl

theorem length_recorded {k : Nat} {s : State} {r' : σ}
    (h : after step start r k = (.ok s, r')) :
    (recorded step sched start r k).length = sched.keptCount k := by
  simpa using congrArg List.length
    (show (recorded step sched start r k).map Except.ok = _ from recorded_eq h)

/-! ## The loop -/

variable {isDone : Question σ}

/-- **A chain that is not done after `k` sweeps** goes on from the state that they reach. -/
theorem run_after (fuel : Nat) : ∀ {k : Nat} {s : State} {r' : σ},
    after step start r k = (.ok s, r') →
    (∀ j t q, j < k → after step start r (j + 1) = (.ok t, q) →
      isDone q (recorded step sched start r (j + 1)) t (j + 1) = .ok false) →
    run step sched isDone (k + fuel) 0 [] start r
      = run step sched isDone fuel k (recorded step sched start r k) s r'
  | 0, s, r', h, _ => by cases h; rw [Nat.zero_add]; rfl
  | k + 1, s, r', h, hq => by
    obtain ⟨t, q, hk⟩ := after_ok_of_le h (Nat.le_succ k)
    have hs : (step t).outcome q = (.ok s, r') := (after_succ hk).symm.trans h
    rw [Nat.add_assoc, Nat.add_comm 1 fuel,
      run_after (fuel + 1) hk fun j t q hj => hq j t q (Nat.lt_succ_of_lt hj)]
    rw [run, hs]
    simp only [← recorded_succ h, hq k s r' (Nat.lt_succ_self k) h]

/-- A chain whose next sweep fails. -/
theorem run_of_failure {fuel k : Nat} {draws : List State} {s : State} {q r' : σ} {e : Error}
    (h : (step s).outcome q = (.error e, r')) :
    run step sched isDone (fuel + 1) k draws s q = ⟨.failed e, r', k⟩ := by
  rw [run, h]

end Chain

/-! ## A number of draws -/

namespace Rule

open Chain

variable {step : State → Sampling σ State} {sched : Schedule} {start : State} {r : σ}
  {n : Value} {N : Nat}

/-- Before the announced number of sweeps is reached, there are too few draws. -/
theorem countReached_of_lt (hn : n.IsInteger N) (hN : 1 ≤ N) {k : Nat} (hk : k < sched.sweepsFor N)
    {s : State} {r' : σ} (h : after step start r k = (.ok s, r')) :
    countReached n r' (recorded step sched start r k) s k = .ok false := by
  have hlt := Schedule.keptCount_lt hN hk
  unfold countReached
  rw [Value.equalsCount_of_isInteger hn, length_recorded h]
  simp; omega

/-- **A chain asked for some draws** stops after the announced number of sweeps, however many
    more it may make. -/
theorem run_countReached (hn : n.IsInteger N) (hN : 1 ≤ N) {fuel : Nat}
    (hf : sched.sweepsFor N ≤ fuel) {s : State} {r' : σ}
    (h : after step start r (sched.sweepsFor N) = (.ok s, r')) :
    Chain.run step sched (countReached n) fuel 0 [] start r
      = ⟨.finished (recorded step sched start r (sched.sweepsFor N)), r', sched.sweepsFor N⟩ := by
  obtain ⟨k, hk⟩ : ∃ k, sched.sweepsFor N = k + 1 := ⟨_, rfl⟩
  obtain ⟨more, rfl⟩ := Nat.exists_eq_add_of_le hf
  rw [hk] at h ⊢
  obtain ⟨t, q, ht⟩ := after_ok_of_le h (Nat.le_succ k)
  have hs : (step t).outcome q = (.ok s, r') := (after_succ ht).symm.trans h
  have hdone : countReached n r' (recorded step sched start r (k + 1)) s (k + 1) = .ok true := by
    unfold countReached
    rw [Value.equalsCount_of_isInteger hn, length_recorded h, ← hk, Schedule.keptCount_sweepsFor hN]
    simp
  rw [Nat.add_assoc, Nat.add_comm 1 more, run_after (more + 1) ht fun j t q hj hj' =>
    countReached_of_lt hn hN (by omega) hj', Chain.run, hs]
  simp only [← recorded_succ h, hdone]

/-- **A chain with a failing sweep** among the announced ones fails with it. -/
theorem run_countReached_failed (hn : n.IsInteger N) (hN : 1 ≤ N) {fuel : Nat}
    (hf : sched.sweepsFor N ≤ fuel) {k : Nat} (hk : k < sched.sweepsFor N) {s : State} {q r' : σ}
    {e : Error} (h : after step start r k = (.ok s, q)) (hs : (step s).outcome q = (.error e, r')) :
    Chain.run step sched (countReached n) fuel 0 [] start r = ⟨.failed e, r', k⟩ := by
  obtain ⟨more, rfl⟩ : ∃ more, fuel = k + (more + 1) := ⟨fuel - k - 1, by omega⟩
  rw [run_after (more + 1) h fun j t q hj hj' => countReached_of_lt hn hN (by omega) hj',
    run_of_failure hs]

theorem run_count (hn : n.IsInteger N) (hN : 1 ≤ N) :
    (Rule.count n).run step sched start r
      = Chain.run step sched (countReached n) (sched.sweepsFor N) 0 [] start r := by
  have h0 : n.equalsCount 0 = false := by
    rw [Value.equalsCount_of_isInteger hn]; simp; omega
  have hbound : sweepBound n sched N = sched.sweepsFor N :=
    if_pos (by rw [Value.equalsCount_of_isInteger hn]; exact beq_self_eq_true _)
  simp only [Rule.run, Value.truncated_of_isInteger hn, h0, Bool.false_eq_true, if_false,
    Int.toNat_natCast, hbound]

theorem run_count_zero (hn : n.IsInteger 0) :
    (Rule.count n).run step sched start r = ⟨.finished [], r, 0⟩ := by
  have h0 : n.equalsCount 0 = true := by rw [Value.equalsCount_of_isInteger hn]; rfl
  simp only [Rule.run, Value.truncated_of_isInteger hn, h0, if_true]

/-- A chain asked for some draws comes to an end. -/
theorem run_count_ends (hn : n.IsInteger N) :
    ((Rule.count n).run step sched start r).outcome ≠ .running := by
  rcases Nat.eq_zero_or_pos N with rfl | hN
  · rw [run_count_zero hn]; simp
  · rw [run_count hn hN]
    rcases h : after step start r (sched.sweepsFor N) with ⟨e | u, r'⟩
    · obtain ⟨k, hk, u, q, hu, he⟩ := exists_first_failure h
      rw [run_countReached_failed hn hN le_rfl hk hu he]; simp
    · rw [run_countReached hn hN le_rfl h]; simp

end Rule

/-! ## Chains of a sampler -/

/-- **The schedule of a chain.**  A chain that is asked for no draws makes no sweeps.  One
    that is asked for `N` draws makes exactly `d + (N - 1) * t + 1` sweeps, the announced
    number, and returns the states after the sweeps `d + 1`, `d + 1 + t`, …, in this order; if
    one of these sweeps fails, the chain fails with the error of the first one.  The loop does
    not need a bound on its sweeps to stop there. -/
theorem chain_schedule (s : Sampler) (start : State) (r : Stream) {n : Value} {N d t : Nat}
    (hn : n.IsInteger N) (ht : 1 ≤ t) :
    (N = 0 → s.chain (.count n) (.ofInts d t) start r = ⟨.finished [], r, 0⟩) ∧
    (1 ≤ N →
      (Schedule.ofInts d t).sweepsFor N = d + (N - 1) * t + 1 ∧
      (∀ u r', Chain.after s.step start r (d + (N - 1) * t + 1) = (.ok u, r') →
        ∃ draws, s.chain (.count n) (.ofInts d t) start r
            = ⟨.finished draws, r', d + (N - 1) * t + 1⟩ ∧
          draws.map Except.ok
            = (List.range N).map fun i => (Chain.after s.step start r (d + 1 + i * t)).1) ∧
      (∀ e r', Chain.after s.step start r (d + (N - 1) * t + 1) = (.error e, r') →
        ∃ k < d + (N - 1) * t + 1, ∃ u q, Chain.after s.step start r k = (.ok u, q) ∧
          (s.step u).outcome q = (.error e, r') ∧
          s.chain (.count n) (.ofInts d t) start r = ⟨.failed e, r', k⟩) ∧
      ∀ fuel, d + (N - 1) * t + 1 ≤ fuel →
        Chain.run s.step (.ofInts d t) (Rule.countReached n) fuel 0 [] start r
          = s.chain (.count n) (.ofInts d t) start r) := by
  have hd : (Schedule.ofInts d t).discard = d := Int.toNat_natCast d
  have htt : (Schedule.ofInts d t).thin = t := by simp only [Schedule.ofInts]; omega
  have htotal : (Schedule.ofInts d t).sweepsFor N = d + (N - 1) * t + 1 := by
    rw [Schedule.sweepsFor, hd, htt]
  refine ⟨?_, fun hN => ⟨htotal, ?_, ?_, ?_⟩⟩
  · rintro rfl; exact Rule.run_count_zero hn
  · intro u r' h
    rw [← htotal] at h ⊢
    refine ⟨_, (Rule.run_count hn hN).trans (Rule.run_countReached hn hN le_rfl h), ?_⟩
    rw [Chain.recorded_eq h, Schedule.keptCount_sweepsFor hN, hd, htt]
  · intro e r' h
    rw [← htotal] at h ⊢
    obtain ⟨k, hk, u, q, hu, he⟩ := Chain.exists_first_failure h
    exact ⟨k, hk, u, q, hu, he,
      (Rule.run_count hn hN).trans (Rule.run_countReached_failed hn hN le_rfl hk hu he)⟩
  · intro fuel hf
    rw [← htotal] at hf
    refine Eq.trans ?_ (Rule.run_count hn hN).symm
    rcases h : Chain.after s.step start r ((Schedule.ofInts d t).sweepsFor N) with ⟨e | u, r'⟩
    · obtain ⟨k, hk, u, q, hu, he⟩ := Chain.exists_first_failure h
      rw [Rule.run_countReached_failed hn hN hf hk hu he,
        Rule.run_countReached_failed hn hN le_rfl hk hu he]
    · rw [Rule.run_countReached hn hN hf h, Rule.run_countReached hn hN le_rfl h]

/-- The state in which `n` has the value `i`, and `x` the value `t`. -/
def counted (i : Int) (t : Float) : State := ⟨[("n", .int i), ("x", .float t)], by simp⟩

/-- A sampler that counts its sweeps in the variable `n` and reads the next number of its stream
    into `x`. -/
def sweepCounter : Sampler where
  initial := counted 0 0.0
  transition := .function fun s _ => match s.get? "n" with
    | some (.plain (.int i)) => do
      let ts ← Stream.call ⟨.uniform, [], none⟩ 1
      return counted (i + 1) (ts.headD 0.0)
    | _ => throw (.fault .wrongType)
  data := []

/-- A sweep of `sweepCounter` counts itself and reads one number of its stream. -/
theorem outcome_step_sweepCounter (i : Int) (t : Float) (r : Stream) :
    (sweepCounter.step (counted i t)).outcome r
      = (.ok (counted (i + 1) r.nextUniform.1), r.nextUniform.2) := by
  cases r <;> rfl

/-- A tape with six numbers of its own, and four children with four numbers each. -/
def numberTape : Stream := .tape (.ofLists [0.25, 0.5, 0.75, 1.0, 1.25, 1.5]
  [[2.25, 2.5, 2.75, 3.0], [4.25, 4.5, 4.75, 5.0], [6.25, 6.5, 6.75, 7.0],
    [8.25, 8.5, 8.75, 9.0]])

/-- The stream after `k` uniform numbers. -/
def Stream.afterUniform (r : Stream) (k : Nat) : Stream := (fun g => g.nextUniform.2)^[k] r

theorem Stream.afterUniform_succ (r : Stream) (k : Nat) :
    r.afterUniform (k + 1) = (r.afterUniform k).nextUniform.2 :=
  Function.iterate_succ_apply' _ k r

/-- Three draws with one dropped sweep and a distance of two. -/
theorem sweepCounter_schedule :
    (Value.int 3).IsInteger (3 : Nat) ∧ 1 ≤ 2 ∧
    sweepCounter.chain (.count (.int 3)) (.ofInts 1 2) sweepCounter.initial numberTape
      = ⟨.finished [counted 2 0.5, counted 4 1.0, counted 6 1.5], numberTape.afterUniform 6, 6⟩ := by
  have hn : (Value.int 3).IsInteger (3 : Nat) := Value.isInteger_int 3
  have hs := (chain_schedule sweepCounter sweepCounter.initial numberTape (d := 1) hn
    (by decide : 1 ≤ 2)).2 (by decide)
  obtain ⟨draws, hc, hd⟩ := hs.2.1 (counted 6 1.5) (numberTape.afterUniform 6) rfl
  have hdraws : draws = [counted 2 0.5, counted 4 1.0, counted 6 1.5] :=
    (List.map_inj_right fun _ _ => Except.ok.inj).1 (hd.trans rfl)
  exact ⟨hn, by decide, hdraws ▸ hc⟩

end Gibbs
