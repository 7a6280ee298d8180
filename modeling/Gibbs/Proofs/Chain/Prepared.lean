/-
  Runs whose arguments are in order.

  A run of several chains checks its arguments, opens its source, resolves its starts and
  its schedule and splits the stream.  If all of this succeeds, what is left is to run the
  chains.

  * `Plan.check_eq_ok`, `check_of_isInteger`: when the arguments are in order;
  * `Plan.Prepared`: a plan together with everything that is found before the first sweep;
  * `Plan.InRange`, `Plan.Counted`: plans whose counts are integers in their ranges, the
    second one of several chains;
  * `Plan.Counts`, `Plan.check_eq_error`: the counts among the arguments, and what an error of
    the checks is about;
  * `Sampler.outcome_runChains`: a prepared run is a run of its chains in order;
  * `Sampler.outcome_runChains_one`, `source_runChains_one`: a prepared run of a single chain;
  * `Sampler.source_runChains_several`: what several chains leave of their source;
  * `Sampler.prepared_cases`: a run that is not prepared is refused for one of its arguments;
  * `Sampler.prepared_of_finished`: only prepared runs finish;
  * `Sampler.source_runChains`: several chains leave the stream where it is.
-/
import Gibbs.Chain.Many
import Gibbs.Proofs.Except
import Mathlib.Tactic.SplitIfs

namespace Gibbs

namespace Plan

variable {σ : Type}

/-! ## Arguments in order -/

theorem atLeast_eq_ok {bound : Int} {v : Value} {e : Error} :
    atLeast bound v e = .ok () ↔ v.lessThan bound = .ok false := by
  unfold atLeast orError
  rcases h : v.lessThan bound with f | _ | _ <;>
    simp [Except.mapError, bind, Except.bind, pure, Except.pure, throw, throwThe,
      MonadExceptOf.throw]

theorem atLeast_of_isInteger {bound i : Int} {v : Value} {e : Error} (h : v.IsInteger i)
    (hb : bound ≤ i) : atLeast bound v e = .ok () := by
  rw [atLeast_eq_ok, Value.lessThan_of_isInteger h, decide_eq_false (by omega)]

/-- **The arguments are in order** if each of them is in its range. -/
theorem check_eq_ok {p : Plan σ} :
    p.check = .ok () ↔
      p.chains.lessThan 1 = .ok false ∧ p.thin.lessThan 1 = .ok false ∧
      p.discard.lessThan 0 = .ok false ∧ p.checkRule = .ok () ∧
      ∀ w, p.workers? = some w → w.lessThan 1 = .ok false := by
  rw [check]
  simp only [bind_eq_ok]
  constructor
  · rintro ⟨⟨⟩, h1, ⟨⟩, h2, ⟨⟩, h3, ⟨⟩, h4, h5⟩
    refine ⟨atLeast_eq_ok.1 h1, atLeast_eq_ok.1 h2, atLeast_eq_ok.1 h3, h4, fun w hw => ?_⟩
    rw [hw] at h5
    exact atLeast_eq_ok.1 h5
  · rintro ⟨h1, h2, h3, h4, h5⟩
    refine ⟨(), atLeast_eq_ok.2 h1, (), atLeast_eq_ok.2 h2, (), atLeast_eq_ok.2 h3, (), h4, ?_⟩
    cases hw : p.workers? with
    | none => rfl
    | some w => exact atLeast_eq_ok.2 (h5 w hw)

/-- **Integers in their ranges** pass the checks, if the stopping rule does. -/
theorem check_of_isInteger {p : Plan σ} {C d t : Nat} (hC : p.chains.IsInteger C)
    (hC1 : 1 ≤ C) (ht : p.thin.IsInteger t) (ht1 : 1 ≤ t) (hd : p.discard.IsInteger d)
    (hrule : p.checkRule = .ok ())
    (hw : ∀ w, p.workers? = some w → ∃ W : Nat, 1 ≤ W ∧ w.IsInteger W) : p.check = .ok () := by
  refine check_eq_ok.2 ⟨?_, ?_, ?_, hrule, fun w hw' => ?_⟩
  · rw [Value.lessThan_of_isInteger hC, decide_eq_false (by omega)]
  · rw [Value.lessThan_of_isInteger ht, decide_eq_false (by omega)]
  · rw [Value.lessThan_of_isInteger hd, decide_eq_false (by omega)]
  · obtain ⟨W, hW, hi⟩ := hw w hw'
    rw [Value.lessThan_of_isInteger hi, decide_eq_false (by omega)]

theorem orError_truncated {v : Value} {i : Int} (h : v.IsInteger i) :
    orError v.truncated = .ok i := by
  rw [Value.truncated_of_isInteger h]; rfl

theorem chainCount_of_isInteger {p : Plan σ} {C : Nat} (h : p.chains.IsInteger C) :
    p.chainCount = .ok C := by
  rw [chainCount, orError_truncated h]; rfl

theorem length_startStates {p : Plan σ} {initial : State} {C : Nat} {starts : List State}
    (h : p.startStates initial C = .ok starts) : starts.length = C := by
  unfold startStates at h
  split at h
  · cases h; exact List.length_replicate
  · cases h; exact List.length_replicate
  · split_ifs at h with hC
    cases h; exact hC

/-! ## Prepared runs -/

/-- A plan on a source, together with everything that is found before the first sweep: the
    number of chains, the open stream, the starts and the schedule. -/
structure Prepared (p : Plan Stream) (initial : State) (source : Source) (C : Nat) (g : Stream)
    (starts : List State) (sched : Schedule) : Prop where
  check : p.check = .ok ()
  chainCount : p.chainCount = .ok C
  openStream : source.openStream = .ok g
  startStates : p.startStates initial C = .ok starts
  schedule : p.schedule = .ok sched
  announcements : ∃ a, Sampler.announcements p C = .ok a

/-! ## Integer arguments -/

/-- A plan whose counts are integers in their ranges: `C` chains of `N` draws each, with `d`
    dropped sweeps and a distance of `t`. -/
structure InRange (p : Plan σ) (n : Value) (N C d t : Nat) : Prop where
  rule : p.rule = .count n
  draws : n.IsInteger N
  chains : p.chains.IsInteger C
  one_le_chains : 1 ≤ C
  discard : p.discard.IsInteger d
  thin : p.thin.IsInteger t
  one_le_thin : 1 ≤ t
  workers : ∀ w, p.workers? = some w → ∃ W : Nat, 1 ≤ W ∧ w.IsInteger W

namespace InRange

variable {p : Plan σ} {n : Value} {N C d t : Nat}

theorem check (h : p.InRange n N C d t) : p.check = .ok () := by
  refine check_of_isInteger h.chains h.one_le_chains h.thin h.one_le_thin h.discard ?_ h.workers
  simp only [checkRule, h.rule]
  exact atLeast_of_isInteger h.draws (by omega)

theorem schedule (h : p.InRange n N C d t) : p.schedule = .ok (.ofInts d t) := by
  rw [Plan.schedule, orError_truncated h.discard, orError_truncated h.thin]; rfl

/-- There is a worker, and not more than one for every chain. -/
theorem workerCount (h : p.InRange n N C d t) :
    ∃ workers, p.workerCount C = .ok workers ∧ 1 ≤ workers ∧ workers ≤ C := by
  have hC := h.one_le_chains
  unfold Plan.workerCount
  rcases hw : p.workers? with _ | w
  · exact ⟨C, rfl, by omega, Nat.le_refl C⟩
  · obtain ⟨W, hW, hi⟩ := h.workers w hw
    refine ⟨min W C, ?_, by omega, by omega⟩
    simp only [orError_truncated hi]; rfl

end InRange

/-- A plan of several chains whose counts are integers in their ranges. -/
structure Counted (p : Plan σ) (n : Value) (N C d t : Nat) : Prop extends p.InRange n N C d t where
  several : 2 ≤ C
  one_le_chains := Nat.le_of_lt several

/-- Whether the chains run at the same time makes no difference to the counts. -/
theorem Counted.withParallel {p : Plan σ} {n : Value} {N C d t : Nat} (h : p.Counted n N C d t)
    (b : Bool) : ({ p with parallel := b }).Counted n N C d t :=
  { h with }

end Plan

theorem Sampler.exists_announcements {p : Plan Stream} {C workers : Nat}
    (h : p.workerCount C = .ok workers) : ∃ a, announcements p C = .ok a := by
  unfold announcements
  split_ifs
  · exact ⟨_, rfl⟩
  · exact ⟨_, rfl⟩
  · exact ⟨_, by rw [h]; rfl⟩
  · exact ⟨_, rfl⟩

theorem Plan.InRange.prepared {p : Plan Stream} {n : Value} {N C d t : Nat}
    (h : p.InRange n N C d t) {initial : State} {source : Source} {g : Stream}
    {starts : List State} (hg : source.openStream = .ok g)
    (hs : p.startStates initial C = .ok starts) :
    p.Prepared initial source C g starts (.ofInts d t) where
  check := h.check
  chainCount := chainCount_of_isInteger h.chains
  openStream := hg
  startStates := hs
  schedule := h.schedule
  announcements := by
    obtain ⟨workers, hw, -⟩ := h.workerCount
    exact Sampler.exists_announcements hw

/-- The streams that the chains draw from: the stream itself for a single chain, children of
    it for several chains. -/
def chainStreams (g : Stream) (C : Nat) : List Stream :=
  if C = 1 then [g] else (g.spawn C).1

theorem chainStreams_one (g : Stream) : chainStreams g 1 = [g] := rfl

theorem getElem?_chainStreams {g : Stream} {C i : Nat} (hC : 2 ≤ C) (hi : i < C) :
    (chainStreams g C)[i]? = some (g.child (g.spawned + i)) := by
  rw [chainStreams, if_neg (by omega), Stream.getElem?_spawn hi]

/-! ## Refused arguments -/

/-- The counts among the arguments of a run. -/
inductive Plan.Counts {σ : Type} (p : Plan σ) : Value → Prop where
  | chains : p.Counts p.chains
  | thin : p.Counts p.thin
  | discard : p.Counts p.discard
  | draws {n : Value} (h : p.rule = .count n) : p.Counts n
  | workers {w : Value} (h : p.workers? = some w) : p.Counts w

/-- Errors about the arguments of a run. -/
def Error.isArgument : Error → Bool
  | fault _ | tooFewChains _ | thinTooSmall _ | discardNegative _ | drawsNegative _
  | tooFewWorkers _ | ruleForManyChains | startCount _ _ | unsplittableGenerator => true
  | _ => false

theorem Error.isArgument_of_orError {α : Type} {r : Except Fault α} {e : Error}
    (h : orError r = .error e) : e.isArgument = true := by
  cases r with
  | error f => cases h; rfl
  | ok a => cases h

theorem Source.isArgument_of_openStream {source : Source} {e : Error}
    (h : source.openStream = .error e) : e.isArgument = true := by
  cases source with
  | seed n =>
    rw [openStream] at h
    split at h
    · cases h
    · cases h; rfl
  | unsplittable => cases h; rfl
  | sequence | stream | ambient => cases h

namespace Plan

variable {p : Plan Stream} {e : Error}

theorem isArgument_of_atLeast {bound : Int} {v : Value} {e' : Error} (he : e.isArgument = true)
    (h : atLeast bound v e = .error e') : e'.isArgument = true := by
  rcases bind_eq_error.1 h with h | ⟨b, -, h⟩
  · exact Error.isArgument_of_orError h
  · cases b with
    | true => cases h; exact he
    | false => cases h

/-- **An error of the checks** is about the question for several chains, or it is that of the
    comparison of a count with its bound. -/
theorem check_eq_error (h : p.check = .error e) : e = .ruleForManyChains ∨
    ∃ bound v e', p.Counts v ∧ atLeast bound v e' = .error e ∧ e'.isArgument = true ∧
      e'.kind = .fault .badValue := by
  rcases bind_eq_error.1 h with h | ⟨-, -, h⟩
  · exact .inr ⟨_, _, _, .chains, h, rfl, rfl⟩
  rcases bind_eq_error.1 h with h | ⟨-, -, h⟩
  · exact .inr ⟨_, _, _, .thin, h, rfl, rfl⟩
  rcases bind_eq_error.1 h with h | ⟨-, -, h⟩
  · exact .inr ⟨_, _, _, .discard, h, rfl, rfl⟩
  rcases bind_eq_error.1 h with h | ⟨-, -, h⟩
  · unfold checkRule at h
    split at h
    · split_ifs at h
      cases h
      exact .inl rfl
    · next n hn => exact .inr ⟨_, _, _, .draws hn, h, rfl, rfl⟩
  · split at h
    · next w hw => exact .inr ⟨_, _, _, .workers hw, h, rfl, rfl⟩
    · cases h

theorem isArgument_of_check (h : p.check = .error e) : e.isArgument = true := by
  rcases check_eq_error h with rfl | ⟨bound, v, e', -, h, he', -⟩
  · rfl
  · exact isArgument_of_atLeast he' h

theorem isArgument_of_chainCount (h : p.chainCount = .error e) : e.isArgument = true := by
  rcases bind_eq_error.1 h with h | ⟨i, -, h⟩
  · exact Error.isArgument_of_orError h
  · cases h

theorem isArgument_of_startStates {initial : State} {C : Nat}
    (h : p.startStates initial C = .error e) : e.isArgument = true := by
  unfold startStates at h
  split at h
  · cases h
  · cases h
  · split_ifs at h
    cases h; rfl

theorem isArgument_of_schedule (h : p.schedule = .error e) : e.isArgument = true := by
  rcases bind_eq_error.1 h with h | ⟨d, -, h⟩
  · exact Error.isArgument_of_orError h
  rcases bind_eq_error.1 h with h | ⟨t, -, h⟩
  · exact Error.isArgument_of_orError h
  · cases h

theorem isArgument_of_workerCount {C : Nat} (h : p.workerCount C = .error e) :
    e.isArgument = true := by
  unfold workerCount at h
  split at h
  · cases h
  · rcases bind_eq_error.1 h with h | ⟨i, -, h⟩
    · exact Error.isArgument_of_orError h
    · cases h

end Plan

theorem Sampler.isArgument_of_announcements {p : Plan Stream} {C : Nat} {e : Error}
    (h : announcements p C = .error e) : e.isArgument = true := by
  unfold announcements at h
  split_ifs at h
  rcases bind_eq_error.1 h with h | ⟨i, -, h⟩
  · exact Plan.isArgument_of_workerCount h
  · cases h

namespace Sampler

variable {s : Sampler} {p : Plan Stream} {source : Source} {C : Nat} {g : Stream}
  {starts : List State} {sched : Schedule} {chains : List (List State)}

/-- A run of which the arguments are in order goes on to its chains. -/
theorem runChains_of_started (hcheck : p.check = .ok ()) (hcount : p.chainCount = .ok C)
    (hopen : source.openStream = .ok g) (hstarts : p.startStates s.initial C = .ok starts) :
    s.runChains p source = s.runOpen p source g C starts := by
  simp [runChains, hcheck, hcount, hopen, hstarts, bind, Except.bind, pure, Except.pure]

theorem runChains_of_prepared (h : p.Prepared s.initial source C g starts sched) :
    s.runChains p source = s.runOpen p source g C starts :=
  runChains_of_started h.check h.chainCount h.openStream h.startStates

/-- Several chains leave their source with the children given out, whatever becomes of them. -/
theorem source_runOpen (hC : C ≠ 1) :
    (s.runOpen p source g C starts).source = source.close (g.skipChildren C) := by
  simp only [runOpen, if_neg hC]
  split <;> rfl

/-- **A prepared run** is a run of its chains in order. -/
theorem outcome_runChains (h : p.Prepared s.initial source C g starts sched) :
    (s.runChains p source).outcome
      = (runInOrder (s.chain p.rule sched) (starts.zip (chainStreams g C))).1 := by
  obtain ⟨⟨notes, warnings⟩, ha⟩ := h.announcements
  rw [runChains_of_prepared h, runOpen]
  simp only [h.schedule, ha, bind, Except.bind, pure, Except.pure, chainStreams]
  split_ifs <;> rfl

/-- **A prepared run of a single chain** is that chain. -/
theorem outcome_runChains_one {start : State}
    (h : p.Prepared s.initial source 1 g [start] sched) :
    (s.runChains p source).outcome
      = (s.chain p.rule sched start g).outcome.andThen fun draws => .ok [draws] := by
  rw [outcome_runChains h, chainStreams_one]
  exact runInOrder_singleton _ start g

/-- **A single chain** leaves its source at what it left of the stream. -/
theorem source_runChains_one {start : State}
    (h : p.Prepared s.initial source 1 g [start] sched) :
    (s.runChains p source).source = source.close (s.chain p.rule sched start g).left := by
  obtain ⟨⟨notes, warnings⟩, ha⟩ := h.announcements
  have hleft : ((runInOrder (s.chain p.rule sched) [(start, g)]).2.map ChainEnd.left).headD g
      = (s.chain p.rule sched start g).left := by
    simp only [runInOrder]
    split <;> rfl
  rw [runChains_of_prepared h, runOpen]
  simp only [h.schedule, ha, bind, Except.bind, pure, Except.pure, if_true, List.zip_cons_cons,
    List.zip_nil_left, hleft]

/-- **Prepared runs of several chains** leave their source with the children given out. -/
theorem source_runChains_several (h : p.Prepared s.initial source C g starts sched)
    (hC : C ≠ 1) : (s.runChains p source).source = source.close (g.skipChildren C) := by
  rw [runChains_of_prepared h, source_runOpen hC]

/-- **A run that is not prepared** is refused for one of its arguments. -/
theorem prepared_cases (s : Sampler) (p : Plan Stream) (source : Source) :
    (∃ C g starts sched, p.Prepared s.initial source C g starts sched) ∨
    ∃ e, (s.runChains p source).outcome = .failed e ∧ e.isArgument = true := by
  cases hcheck : p.check with
  | error e =>
    refine .inr ⟨e, ?_, Plan.isArgument_of_check hcheck⟩
    simp [runChains, hcheck, bind, Except.bind, RunEnd.refused]
  | ok u =>
  cases hcount : p.chainCount with
  | error e =>
    refine .inr ⟨e, ?_, Plan.isArgument_of_chainCount hcount⟩
    simp [runChains, hcheck, hcount, bind, Except.bind, RunEnd.refused]
  | ok C =>
  cases hopen : source.openStream with
  | error e =>
    refine .inr ⟨e, ?_, Source.isArgument_of_openStream hopen⟩
    simp [runChains, hcheck, hcount, hopen, bind, Except.bind, RunEnd.refused]
  | ok g =>
  cases hstarts : p.startStates s.initial C with
  | error e =>
    refine .inr ⟨e, ?_, Plan.isArgument_of_startStates hstarts⟩
    simp [runChains, hcheck, hcount, hopen, hstarts, bind, Except.bind, RunEnd.refused]
  | ok starts =>
  have hrun := runChains_of_started hcheck hcount hopen hstarts
  cases hsched : p.schedule with
  | error e =>
    refine .inr ⟨e, ?_, Plan.isArgument_of_schedule hsched⟩
    simp [hrun, runOpen, hsched, bind, Except.bind]
  | ok sched =>
  cases hnotes : announcements p C with
  | error e =>
    refine .inr ⟨e, ?_, isArgument_of_announcements hnotes⟩
    simp [hrun, runOpen, hsched, hnotes, bind, Except.bind]
  | ok notes => exact .inl ⟨C, g, starts, sched, hcheck, hcount, hopen, hstarts, hsched, _, hnotes⟩

/-- **Only prepared runs finish.** -/
theorem prepared_of_finished (h : (s.runChains p source).outcome = .finished chains) :
    ∃ C g starts sched, p.Prepared s.initial source C g starts sched := by
  rcases prepared_cases s p source with hp | ⟨e, he, -⟩
  · exact hp
  · cases h.symm.trans he

/-- **Several chains leave the stream where it is**, whether they finish or not: it has given
    out its children, one for every chain, and nothing else. -/
theorem source_runChains (hC : p.chainCount = .ok C) (h2 : 2 ≤ C) :
    (s.runChains p source).source = source ∨
      ∃ g, source.openStream = .ok g ∧
        (s.runChains p source).source = source.close (g.skipChildren C) := by
  simp only [runChains]
  split
  · exact Or.inl rfl
  · next g C' starts hp =>
    obtain ⟨⟨⟩, -, hp⟩ := bind_eq_ok.1 hp
    obtain ⟨_, hcount, hp⟩ := bind_eq_ok.1 hp
    obtain ⟨_, hopen, hp⟩ := bind_eq_ok.1 hp
    obtain ⟨_, -, hp⟩ := bind_eq_ok.1 hp
    cases hp
    obtain rfl : C = C' := Except.ok.inj (hC.symm.trans hcount)
    exact Or.inr ⟨g, hopen, source_runOpen (by omega)⟩

end Sampler

end Gibbs
