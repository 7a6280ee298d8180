/-
  Chains that are stopped by a question.

  The question is asked once after every sweep, dropped sweeps included, with the draws that
  are kept by then.  The first sweep after which it is answered with yes is the last one, and
  its draws are those of the chain.

  * `Chain.runNoted`: a chain together with what its question was asked; `fst_runNoted`: it is
    the chain;
  * `Chain.Asks`: what a question is asked after a sweep; `isNoted`: all of a chain;
  * `run_answered`, `run_unanswered`: a chain up to the first yes, or to the first failure;
  * `Plan.Asking`: plans with a question, for a single chain;
  * `chain_asked`: the question of a chain, and the question for a number of draws.
-/
import Gibbs.Proofs.Chain.Prepared
import Gibbs.Proofs.Chain.Trajectory

namespace Gibbs

variable {σ : Type}

/-- What a question is asked: the randomness that is left, the draws kept so far, the state
    and the number of sweeps. -/
structure Consultation (σ : Type) where
  left : σ
  draws : List State
  state : State
  sweep : Nat

/-- The answer to a question. -/
def Consultation.answer (q : Consultation σ) (isDone : Question σ) : Except Error Bool :=
  isDone q.left q.draws q.state q.sweep

/-! ## The questions of a chain -/

namespace Chain

/-- A chain, together with what its question was asked. -/
def runNoted (step : State → Sampling σ State) (sched : Schedule) (isDone : Question σ) :
    Nat → Nat → List State → State → σ → ChainEnd σ × List (Consultation σ)
  | 0, done, _, _, r => (⟨.running, r, done⟩, [])
  | fuel + 1, done, draws, s, r =>
    match (step s).outcome r with
    | (.error e, r') => (⟨.failed e, r', done⟩, [])
    | (.ok s', r') =>
      let q : Consultation σ := ⟨r', keep sched (done + 1) draws s', s', done + 1⟩
      match q.answer isDone with
      | .error e => (⟨.failed e, r', done + 1⟩, [q])
      | .ok true => (⟨.finished q.draws, r', done + 1⟩, [q])
      | .ok false =>
        let (e, qs) := runNoted step sched isDone fuel (done + 1) q.draws s' r'
        (e, q :: qs)

/-- **Noting what is asked** changes nothing. -/
theorem fst_runNoted (step : State → Sampling σ State) (sched : Schedule) (isDone : Question σ)
    (fuel done : Nat) (draws : List State) (s : State) (r : σ) :
    (runNoted step sched isDone fuel done draws s r).1
      = run step sched isDone fuel done draws s r := by
  induction fuel generalizing done draws s r with
  | zero => rfl
  | succ fuel ih =>
    rw [runNoted, run]
    rcases (step s).outcome r with ⟨e | s', r'⟩
    · rfl
    · simp only [Consultation.answer]
      rcases isDone r' (keep sched (done + 1) draws s') s' (done + 1) with e | _ | _
      · rfl
      · exact ih (done + 1) (keep sched (done + 1) draws s') s' r'
      · rfl

variable {step : State → Sampling σ State} {start : State} {r : σ} {isDone : Question σ}
  {d t : Nat}

/-- What is asked after the `k`-th sweep: the state and the randomness that this sweep leaves,
    and the states after the sweeps `d + 1`, `d + 1 + t`, … up to it. -/
structure Asks (step : State → Sampling σ State) (d t : Nat) (start : State) (r : σ) (k : Nat)
    (q : Consultation σ) : Prop where
  sweep : q.sweep = k
  reached : after step start r k = (.ok q.state, q.left)
  draws : q.draws.map Except.ok
    = ((List.range k).filter fun i => decide (d + 1 + i * t ≤ k)).map fun i =>
        (after step start r (d + 1 + i * t)).1

/-- The draws that a question is asked with are those that the chain has recorded. -/
theorem asks_iff (ht : 1 ≤ t) {k : Nat} {q : Consultation σ} :
    Asks step d t start r k q ↔ q.sweep = k ∧ after step start r k = (.ok q.state, q.left) ∧
      q.draws = recorded step (.ofInts d t) start r k := by
  have hd : (Schedule.ofInts d t).discard = d := Int.toNat_natCast d
  have htt : (Schedule.ofInts d t).thin = t := by simp only [Schedule.ofInts]; omega
  have hrecorded : after step start r k = (.ok q.state, q.left) →
      (recorded step (.ofInts d t) start r k).map Except.ok
        = ((List.range k).filter fun i => decide (d + 1 + i * t ≤ k)).map fun i =>
            (after step start r (d + 1 + i * t)).1 := by
    intro h
    have hkept := Schedule.filter_range_keptCount (.ofInts d t) k
    rw [hd, htt] at hkept
    rw [recorded_eq h, hkept, hd, htt]
  constructor
  · rintro ⟨hsweep, hreached, hdraws⟩
    refine ⟨hsweep, hreached, ?_⟩
    exact (List.map_inj_right fun _ _ => Except.ok.inj).1 (hdraws.trans (hrecorded hreached).symm)
  · rintro ⟨hsweep, hreached, hdraws⟩
    exact ⟨hsweep, hreached, by rw [hdraws]; exact hrecorded hreached⟩

theorem Asks.length_draws (ht : 1 ≤ t) {k : Nat} {q : Consultation σ}
    (h : Asks step d t start r k q) : q.draws.length = (Schedule.ofInts d t).keptCount k := by
  obtain ⟨-, hreached, hdraws⟩ := (asks_iff ht).1 h
  rw [hdraws, length_recorded hreached]

/-- What a chain that has made `k` sweeps is asked in at most `fuel` more of them: one question
    after each sweep, the last one being the only one that need not be answered with no. -/
structure IsNoted (step : State → Sampling σ State) (d t : Nat) (start : State) (r : σ)
    (isDone : Question σ) (fuel k : Nat) (e : ChainEnd σ) (qs : List (Consultation σ)) :
    Prop where
  sweeps : e.sweeps = k + qs.length
  asks : ∀ (j : Nat) q, qs[j]? = some q → Asks step d t start r (k + j + 1) q
  answers : ∀ (j : Nat) q, qs[j]? = some q → j + 1 < qs.length → q.answer isDone = .ok false
  finished : ∀ draws, e.outcome = .finished draws → ∃ q, qs.getLast? = some q ∧
    q.answer isDone = .ok true ∧ q.draws = draws ∧ q.left = e.left
  running : e.outcome = .running → qs.length = fuel

theorem isNoted_nil (fuel k : Nat) {e : ChainEnd σ} (hk : e.sweeps = k)
    (hf : ∀ draws, e.outcome ≠ .finished draws) (hr : e.outcome = .running → 0 = fuel) :
    IsNoted step d t start r isDone fuel k e [] :=
  ⟨hk, nofun, nofun, fun draws h => absurd h (hf draws), hr⟩

theorem isNoted_singleton {fuel k : Nat} {e : ChainEnd σ} {q : Consultation σ}
    (hk : e.sweeps = k + 1) (hq : Asks step d t start r (k + 1) q)
    (hf : ∀ draws, e.outcome = .finished draws →
      q.answer isDone = .ok true ∧ q.draws = draws ∧ q.left = e.left)
    (hr : e.outcome ≠ .running) : IsNoted step d t start r isDone fuel k e [q] := by
  refine ⟨hk, ?_, ?_, fun draws h => ⟨q, rfl, hf draws h⟩, fun h => absurd h hr⟩
  · rintro (_ | j) _ ⟨⟩; exact hq
  · rintro j _ - hj
    rw [List.length_singleton] at hj; omega

theorem IsNoted.cons {fuel k : Nat} {e : ChainEnd σ} {q : Consultation σ}
    {qs : List (Consultation σ)} (h : IsNoted step d t start r isDone fuel (k + 1) e qs)
    (hq : Asks step d t start r (k + 1) q) (hno : q.answer isDone = .ok false) :
    IsNoted step d t start r isDone (fuel + 1) k e (q :: qs) := by
  refine ⟨?_, ?_, ?_, ?_, ?_⟩
  · rw [h.sweeps, List.length_cons]; omega
  · rintro (_ | j) p hp
    · cases hp; exact hq
    · have hasks := h.asks j p hp
      rwa [show k + 1 + j + 1 = k + (j + 1) + 1 by omega] at hasks
  · rintro (_ | j) p hp hj
    · cases hp; exact hno
    · exact h.answers j p hp (by rw [List.length_cons] at hj; omega)
  · intro draws hdraws
    obtain ⟨p, hp, hrest⟩ := h.finished draws hdraws
    refine ⟨p, ?_, hrest⟩
    rw [List.getLast?_cons, hp]; rfl
  · intro hr
    rw [List.length_cons, h.running hr]

/-- **A question is asked once after every sweep.** -/
theorem isNoted (ht : 1 ≤ t) (fuel : Nat) {k : Nat} {s : State} {r' : σ}
    (h : after step start r k = (.ok s, r')) :
    IsNoted step d t start r isDone fuel k
      (runNoted step (.ofInts d t) isDone fuel k (recorded step (.ofInts d t) start r k) s r').1
      (runNoted step (.ofInts d t) isDone fuel k (recorded step (.ofInts d t) start r k) s r').2 := by
  induction fuel generalizing k s r' with
  | zero => exact isNoted_nil 0 k rfl nofun fun _ => rfl
  | succ fuel ih =>
    rw [runNoted]
    rcases hs : (step s).outcome r' with ⟨e | s', q⟩
    · exact isNoted_nil (fuel + 1) k rfl nofun nofun
    · have hnext : after step start r (k + 1) = (.ok s', q) := (after_succ h).trans hs
      have hasks : Asks step d t start r (k + 1)
          ⟨q, keep (.ofInts d t) (k + 1) (recorded step (.ofInts d t) start r k) s', s', k + 1⟩ :=
        (asks_iff ht).2 ⟨rfl, hnext, (recorded_succ hnext).symm⟩
      simp only
      split
      · exact isNoted_singleton rfl hasks nofun nofun
      · next hyes =>
        refine isNoted_singleton rfl hasks ?_ nofun
        rintro draws ⟨⟩; exact ⟨hyes, rfl, rfl⟩
      · next hno =>
        have hrest := ih hnext
        rw [recorded_succ hnext] at hrest
        exact hrest.cons hasks hno

/-! ## The first yes -/

/-- **A chain up to the first yes.** -/
theorem run_answered (ht : 1 ≤ t) {k : Nat} {c : Consultation σ} (hk : 1 ≤ k)
    (hc : Asks step d t start r k c) (hyes : c.answer isDone = .ok true)
    (hno : ∀ j q, 1 ≤ j → j < k → Asks step d t start r j q → q.answer isDone = .ok false)
    {fuel : Nat} (hf : k ≤ fuel) :
    run step (.ofInts d t) isDone fuel 0 [] start r = ⟨.finished c.draws, c.left, k⟩ := by
  obtain ⟨k, rfl⟩ := Nat.exists_eq_add_of_le' hk
  obtain ⟨more, rfl⟩ := Nat.exists_eq_add_of_le hf
  obtain ⟨hsweep, hreached, hdraws⟩ := (asks_iff ht).1 hc
  obtain ⟨u, q, hu⟩ := after_ok_of_le hreached (Nat.le_succ k)
  have hs : (step u).outcome q = (.ok c.state, c.left) := (after_succ hu).symm.trans hreached
  have hdone : isDone c.left (recorded step (.ofInts d t) start r (k + 1)) c.state (k + 1)
      = .ok true := by
    rw [← hdraws, ← hsweep]; exact hyes
  have hbefore : ∀ j v p, j < k → after step start r (j + 1) = (.ok v, p) →
      isDone p (recorded step (.ofInts d t) start r (j + 1)) v (j + 1) = .ok false :=
    fun j v p hj hv => hno (j + 1) ⟨p, recorded step (.ofInts d t) start r (j + 1), v, j + 1⟩
      (by omega) (by omega) ((asks_iff ht).2 ⟨rfl, hv, rfl⟩)
  rw [Nat.add_assoc, Nat.add_comm 1 more, run_after (more + 1) hu hbefore, run, hs]
  simp only [← recorded_succ hreached, hdone, hdraws]

/-- **A chain up to the first failure,** if the question was not answered with yes before. -/
theorem run_unanswered (ht : 1 ≤ t) {k : Nat} {s : State} {q r' : σ} {e : Error}
    (h : after step start r k = (.ok s, q)) (hs : (step s).outcome q = (.error e, r'))
    (hno : ∀ j q, 1 ≤ j → j ≤ k → Asks step d t start r j q → q.answer isDone = .ok false)
    {fuel : Nat} (hf : k < fuel) :
    run step (.ofInts d t) isDone fuel 0 [] start r = ⟨.failed e, r', k⟩ := by
  obtain ⟨more, rfl⟩ := Nat.exists_eq_add_of_lt hf
  have hbefore : ∀ j v p, j < k → after step start r (j + 1) = (.ok v, p) →
      isDone p (recorded step (.ofInts d t) start r (j + 1)) v (j + 1) = .ok false :=
    fun j v p hj hv => hno (j + 1) ⟨p, recorded step (.ofInts d t) start r (j + 1), v, j + 1⟩
      (by omega) (by omega) ((asks_iff ht).2 ⟨rfl, hv, rfl⟩)
  rw [Nat.add_assoc, run_after (more + 1) h hbefore, run_of_failure hs]

/-- **The question for a number of draws** makes the chain that is asked for the number, failing
    sweeps included. -/
theorem run_countQuestion (ht : 1 ≤ t) {n : Value} {N : Nat} (hn : n.IsInteger N) (hN : 1 ≤ N)
    (hq : ∀ c : Consultation σ, c.draws.length ≤ N →
      c.answer isDone = .ok (decide (c.draws.length = N)))
    {fuel : Nat} (hf : (Schedule.ofInts d t).sweepsFor N ≤ fuel) :
    run step (.ofInts d t) isDone fuel 0 [] start r
      = (Rule.count n).run step (.ofInts d t) start r := by
  have hno : ∀ j c, j < (Schedule.ofInts d t).sweepsFor N → Asks step d t start r j c →
      c.answer isDone = .ok false := by
    intro j c hj hc
    have hlt := Schedule.keptCount_lt hN hj
    have hlength := hc.length_draws ht
    rw [hq c (by omega), decide_eq_false (by omega)]
  rw [Rule.run_count hn hN]
  rcases h : after step start r ((Schedule.ofInts d t).sweepsFor N) with ⟨e | u, r'⟩
  · obtain ⟨k, hk, u, q, hu, he⟩ := exists_first_failure h
    rw [Rule.run_countReached_failed hn hN (Nat.le_refl _) hk hu he]
    exact run_unanswered ht hu he (fun j c _ hj => hno j c (by omega)) (by omega)
  · have hc : Asks step d t start r ((Schedule.ofInts d t).sweepsFor N)
        ⟨r', recorded step (.ofInts d t) start r ((Schedule.ofInts d t).sweepsFor N), u,
          (Schedule.ofInts d t).sweepsFor N⟩ := (asks_iff ht).2 ⟨rfl, h, rfl⟩
    have hlength := hc.length_draws ht
    rw [Schedule.keptCount_sweepsFor hN] at hlength
    have hyes := hq _ (Nat.le_of_eq hlength)
    rw [decide_eq_true hlength] at hyes
    rw [Rule.run_countReached hn hN (Nat.le_refl _) h]
    exact run_answered ht (by unfold Schedule.sweepsFor; omega) hc hyes
      (fun j c _ hj => hno j c hj) hf

end Chain

/-! ## Runs with a question -/

/-- A plan with a question, whose counts are integers in their ranges: a single chain with `d`
    dropped sweeps and a distance of `t`. -/
structure Plan.Asking (p : Plan σ) (isDone : Question σ) (horizon d t : Nat) : Prop where
  rule : p.rule = .question isDone horizon
  chains : p.chains.IsInteger 1
  discard : p.discard.IsInteger d
  thin : p.thin.IsInteger t
  one_le_thin : 1 ≤ t
  workers : ∀ w, p.workers? = some w → ∃ W : Nat, 1 ≤ W ∧ w.IsInteger W

theorem Plan.Asking.prepared {p : Plan Stream} {isDone : Question Stream} {horizon d t : Nat}
    (h : p.Asking isDone horizon d t) {initial : State} {source : Source} {g : Stream}
    {starts : List State} (hg : source.openStream = .ok g)
    (hs : p.startStates initial 1 = .ok starts) :
    p.Prepared initial source 1 g starts (.ofInts d t) where
  check := by
    have hone : p.chains.IsInteger (1 : Nat) := h.chains
    refine check_of_isInteger hone (Nat.le_refl 1) h.thin h.one_le_thin h.discard ?_ h.workers
    simp only [checkRule, h.rule, Value.equalsCount_of_isInteger h.chains]; rfl
  chainCount := chainCount_of_isInteger h.chains
  openStream := hg
  startStates := hs
  schedule := by rw [Plan.schedule, orError_truncated h.discard, orError_truncated h.thin]; rfl
  announcements := ⟨_, rfl⟩

/-- The consultations of a prepared run of a single chain. -/
theorem Sampler.consulted_runChains_one {s : Sampler} {p : Plan Stream} {source : Source}
    {g : Stream} {start : State} {sched : Schedule}
    (h : p.Prepared s.initial source 1 g [start] sched) (hq : p.rule.isQuestion = true) :
    (s.runChains p source).consulted
      = consultations sched (s.chain p.rule sched start g).sweeps := by
  obtain ⟨⟨notes, warnings⟩, ha⟩ := h.announcements
  have hsweeps : (runInOrder (s.chain p.rule sched) [(start, g)]).2.foldl
      (fun k e => k + e.sweeps) 0 = (s.chain p.rule sched start g).sweeps := by
    simp only [runInOrder]
    split <;> simp
  rw [runChains_of_prepared h, runOpen]
  simp only [h.schedule, ha, bind, Except.bind, pure, Except.pure, if_true, List.zip_cons_cons,
    List.zip_nil_left, hq, hsweeps]

/-- The consultations of a chain, by their sweeps and the numbers of their draws. -/
theorem Chain.IsNoted.consultations {step : State → Sampling σ State} {start : State} {r : σ}
    {isDone : Question σ} {d t fuel : Nat} {e : ChainEnd σ} {qs : List (Consultation σ)}
    (ht : 1 ≤ t) (h : Chain.IsNoted step d t start r isDone fuel 0 e qs) :
    consultations (.ofInts d t) e.sweeps = qs.map fun q => (q.sweep, q.draws.length) := by
  refine List.ext_getElem? fun j => ?_
  have hsweeps : e.sweeps = qs.length := by rw [h.sweeps, Nat.zero_add]
  rw [Gibbs.consultations, List.getElem?_map, List.getElem?_map, hsweeps]
  cases hq : qs[j]? with
  | none =>
    rw [List.getElem?_eq_none (by simpa using List.getElem?_eq_none_iff.1 hq)]; rfl
  | some q =>
    have hasks := h.asks j q hq
    rw [Nat.zero_add] at hasks
    have hkept : ((List.range (j + 1)).filter fun i => (Schedule.ofInts d t).keeps (i + 1)).length
        = (Schedule.ofInts d t).keptCount (j + 1) := by
      rw [← Schedule.length_kept, Schedule.kept, List.filter_map, List.length_map]; rfl
    rw [List.getElem?_range (List.getElem?_eq_some_iff.1 hq).1]
    simp only [Option.map_some, hkept, hasks.sweep, hasks.length_draws ht]

/-- **Chains that are stopped by a question.**  The question is asked once after every sweep, with
    the state and the randomness that the sweep leaves and the draws that are kept by then.  If
    the answer after the `k`-th sweep is the first yes and no sweep fails before, the chain makes
    exactly `k` sweeps and returns exactly these draws.  The question whether `N` draws are kept
    makes the chain that is asked for `N` draws.  A run with a question is the run of its single
    chain. -/
theorem chain_asked (s : Sampler) (start : State) (r : Stream) (isDone : Question Stream)
    {d t : Nat} (ht : 1 ≤ t) :
    (∀ horizon, ∃ qs,
      Chain.runNoted s.step (.ofInts d t) isDone horizon 0 [] start r
        = (s.chain (.question isDone horizon) (.ofInts d t) start r, qs) ∧
      Chain.IsNoted s.step d t start r isDone horizon 0
        (s.chain (.question isDone horizon) (.ofInts d t) start r) qs ∧
      ∀ p source, p.Asking isDone horizon d t → source.openStream = .ok r →
        p.startStates s.initial 1 = .ok [start] →
        (s.runChains p source).outcome
          = (s.chain (.question isDone horizon) (.ofInts d t) start r).outcome.andThen
              (fun draws => .ok [draws]) ∧
        (s.runChains p source).source
          = source.close (s.chain (.question isDone horizon) (.ofInts d t) start r).left ∧
        (s.runChains p source).consulted = qs.map fun q => (q.sweep, q.draws.length)) ∧
    (∀ k c, 1 ≤ k → Chain.Asks s.step d t start r k c → c.answer isDone = .ok true →
      (∀ j q, 1 ≤ j → j < k → Chain.Asks s.step d t start r j q → q.answer isDone = .ok false) →
      ∀ horizon, k ≤ horizon → s.chain (.question isDone horizon) (.ofInts d t) start r
        = ⟨.finished c.draws, c.left, k⟩) ∧
    ∀ n N, n.IsInteger (N : Nat) → 1 ≤ N →
      (∀ c : Consultation Stream, c.draws.length ≤ N →
        c.answer isDone = .ok (decide (c.draws.length = N))) →
      ∀ horizon, d + (N - 1) * t + 1 ≤ horizon →
        s.chain (.question isDone horizon) (.ofInts d t) start r
          = s.chain (.count n) (.ofInts d t) start r := by
  refine ⟨fun horizon => ?_, fun k c hk hc hyes hno horizon hf => ?_,
    fun n N hn hN hq horizon hf => ?_⟩
  · have hnoted : Chain.IsNoted s.step d t start r isDone horizon 0
        (Chain.runNoted s.step (.ofInts d t) isDone horizon 0 [] start r).1
        (Chain.runNoted s.step (.ofInts d t) isDone horizon 0 [] start r).2 :=
      Chain.isNoted ht horizon rfl
    have hfst : (Chain.runNoted s.step (.ofInts d t) isDone horizon 0 [] start r).1
        = s.chain (.question isDone horizon) (.ofInts d t) start r :=
      Chain.fst_runNoted s.step (.ofInts d t) isDone horizon 0 [] start r
    rw [hfst] at hnoted
    refine ⟨_, Prod.ext hfst rfl, hnoted, fun p source hp hg hs => ?_⟩
    have hprepared := hp.prepared hg hs
    have hquestion : p.rule.isQuestion = true := by rw [hp.rule]; rfl
    rw [Sampler.outcome_runChains_one hprepared, Sampler.source_runChains_one hprepared,
      Sampler.consulted_runChains_one hprepared hquestion, hp.rule]
    exact ⟨rfl, rfl, hnoted.consultations ht⟩
  · exact Chain.run_answered ht hk hc hyes hno hf
  · refine Chain.run_countQuestion ht hn hN hq ?_
    rw [Schedule.sweepsFor_ofInts ht]; exact hf

/-- The question whether five sweeps were made. -/
def fifthSweep : Question Stream := fun _ _ _ k => .ok (k == 5)

/-- With one dropped sweep and a distance of two, five sweeps keep two draws; the question
    whether three draws are kept makes six sweeps. -/
theorem sweepCounter_asked : 1 ≤ 2 ∧
    sweepCounter.chain (.question fifthSweep 500) (.ofInts 1 2) sweepCounter.initial numberTape
      = ⟨.finished [counted 2 0.5, counted 4 1.0], numberTape.afterUniform 5, 5⟩ ∧
    sweepCounter.chain (.question (fun _ draws _ _ => .ok (draws.length == 3)) 500) (.ofInts 1 2)
        sweepCounter.initial numberTape
      = sweepCounter.chain (.count (.int 3)) (.ofInts 1 2) sweepCounter.initial numberTape := by
  refine ⟨by decide, ?_, ?_⟩
  · have hyes := (chain_asked sweepCounter sweepCounter.initial numberTape fifthSweep (d := 1)
      (by decide : 1 ≤ 2)).2.1 5
      ⟨numberTape.afterUniform 5, [counted 2 0.5, counted 4 1.0], counted 5 1.25, 5⟩ (by decide)
      ⟨rfl, rfl, rfl⟩ rfl
    refine hyes (fun j q _ hj hq => ?_) 500 (by decide)
    have hne : (q.sweep == 5) = false := by
      rw [hq.sweep, beq_eq_false_iff_ne]; omega
    exact congrArg Except.ok hne
  · exact (chain_asked sweepCounter sweepCounter.initial numberTape _ (d := 1)
      (by decide : 1 ≤ 2)).2.2 (.int 3) 3 (Value.isInteger_int 3) (by decide)
      (fun c _ => rfl) 500 (by decide)

end Gibbs
