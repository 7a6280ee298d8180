/-
  Chains in parallel and in order.

  A run of several chains in parallel is some interleaving of their steps.  All interleavings
  come to an end, and all of them end as if the chains had run one after the other.

  * `Sampler.pool`: the pool of a run;
  * `outcome_withParallel`: what is said to run in parallel has the outcome of a run in order;
  * `parallel_agrees`: so have all interleavings, with the pool of `uneven` as an example.
-/
import Gibbs.Proofs.Chain.Prepared
import Gibbs.Proofs.Chain.Progress
import Gibbs.Proofs.Chain.Trajectory

namespace Gibbs

namespace Sampler

/-- The pool of a run: chains from the starts, each on its own stream. -/
def pool (s : Sampler) (n : Value) (sched : Schedule) (workers : Nat) (starts : List State)
    (streams : List Stream) : Pool Stream where
  step := s.step
  sched := sched
  count := n
  workers := workers
  chains := starts.zip streams

variable {s : Sampler} {p : Plan Stream} {source : Source} {n : Value} {N C d t workers : Nat}
  {g : Stream} {starts : List State} {streams : List Stream}

theorem pool_ends (hn : n.IsInteger N) {sched : Schedule} :
    (s.pool n sched workers starts streams).Ends :=
  fun _ _ => Rule.run_count_ends hn

/-- **A run said to be parallel** has the outcome of a run in order, also if its source or its
    starts are refused. -/
theorem outcome_withParallel (h : p.Counted n N C d t) (b : Bool) :
    (s.runChains { p with parallel := b } source).outcome = (s.runChains p source).outcome := by
  have hb := h.withParallel b
  have hcount := Plan.chainCount_of_isInteger h.chains
  have hcount' := Plan.chainCount_of_isInteger hb.chains
  rcases hg : source.openStream with e | g
  · simp [runChains, h.check, hb.check, hcount, hcount', hg, bind, Except.bind]
  · rcases hs : p.startStates s.initial C with e | starts
    · have hs' : ({ p with parallel := b } : Plan Stream).startStates s.initial C = .error e := hs
      simp [runChains, h.check, hb.check, hcount, hcount', hg, hs, hs', bind, Except.bind]
    · rw [outcome_runChains (h.prepared hg hs), outcome_runChains (hb.prepared hg hs)]

/-- The chains of the pool in order are the run in order. -/
theorem inOrder_pool (h : p.Counted n N C d t) (hg : source.openStream = .ok g)
    (hs : p.startStates s.initial C = .ok starts) :
    (s.pool n (.ofInts d t) workers starts (g.spawn C).1).inOrder
      = (s.runChains p source).outcome := by
  have hC := h.several
  rw [outcome_runChains (h.prepared hg hs), h.rule, chainStreams, if_neg (by omega)]
  rfl

end Sampler

/-- **Chains in parallel agree with chains in order.**  Let the arguments of a run of several
    chains be integers in their ranges.  Then every interleaving of the pool comes to an end,
    and where it cannot go on, the caller has answered.  Every answer is the outcome of the
    run in order, and no chain of a list of chains that is returned was cut short.  The run in
    order returns the chains in their order if all of them succeed, and otherwise the error of
    the first chain that fails. -/
theorem parallel_agrees (s : Sampler) (p : Plan Stream) (source : Source) {n : Value}
    {N C d t : Nat} (hp : p.Counted n N C d t) :
    (s.runChains { p with parallel := true } source).outcome
      = (s.runChains { p with parallel := false } source).outcome ∧
    ∀ g starts, source.openStream = .ok g → p.startStates s.initial C = .ok starts →
      ∃ workers, p.workerCount C = .ok workers ∧
        let P := s.pool n (.ofInts d t) workers starts (g.spawn C).1
        let own := fun x : State × Stream => (s.chain p.rule (.ofInts d t) x.1 x.2).outcome
        let inOrder := (s.runChains { p with parallel := false } source).outcome
        (∀ c, P.Reaches c →
          ((∀ c', ¬ P.Step c c') → c.caller = .answered inOrder) ∧
          (∃ c', Relation.ReflTransGen P.Step c c' ∧ c'.caller = .answered inOrder) ∧
          ∀ o, c.caller = .answered o → o = inOrder ∧
            ∀ chains, o = .finished chains →
              c.stages = chains.map fun draws => Pool.Stage.ended draws false) ∧
        (∀ f : Nat → Pool.Config Stream, f 0 = P.initial → ¬ ∀ k, P.Step (f k) (f (k + 1))) ∧
        ((∃ chains, P.chains.map own = chains.map .finished ∧ inOrder = .finished chains) ∨
          ∃ before x after, ∃ chains : List (List State), ∃ e,
            P.chains = before ++ x :: after ∧ before.map own = chains.map .finished ∧
            own x = .failed e ∧ inOrder = .failed e) := by
  constructor
  · rw [Sampler.outcome_withParallel hp true, Sampler.outcome_withParallel hp false]
  · intro g starts hg hs
    obtain ⟨workers, hw, hw1, -⟩ := hp.workerCount
    refine ⟨workers, hw, ?_⟩
    intro P own inOrder
    have hends : P.Ends := Sampler.pool_ends hp.draws
    have horder : P.inOrder = inOrder :=
      Sampler.inOrder_pool (hp.withParallel false) hg hs
    have hown : own = fun x => (P.chain x).outcome := by
      simp only [own, hp.rule]; rfl
    refine ⟨fun c hc => ⟨fun hstuck => ?_, ?_, fun o ho => ?_⟩, fun f h0 => ?_, ?_⟩
    · rcases Pool.exists_step hw1 (hc.inv hends) with ⟨o, ho⟩ | ⟨c', hc'⟩
      · rw [ho, (Pool.answer_eq hends hc ho).1, horder]
      · exact absurd hc' (hstuck c')
    · obtain ⟨c', o, hc', ho⟩ := Pool.exists_answer hends hw1 hc
      exact ⟨c', hc', by rw [ho, (Pool.answer_eq hends (hc.trans hc') ho).1, horder]⟩
    · rw [← horder]; exact Pool.answer_eq hends hc ho
    · exact Pool.no_infinite_run hends h0
    · rw [hown, ← horder]
      rcases ho : P.inOrder with chains | e | _
      · exact Or.inl ⟨chains, runInOrder_finished ho, rfl⟩
      · obtain ⟨before, x, after, chains, hsplit, hb, hx⟩ := runInOrder_eq_failed.1 ho
        exact Or.inr ⟨before, x, after, chains, e, hsplit, hb, hx, rfl⟩
      · exact absurd ho (runInOrder_ne_running hends)

/-! ## A chain that fails -/

/-- Three chains with two workers, of which the second one has nothing to count and fails before
    it reads a number. -/
def uneven : Plan Stream where
  rule := .count (.int 2)
  chains := .int 3
  thin := .int 1
  discard := .int 0
  workers? := some (.int 2)
  parallel := true
  starts := .each [counted 0 0.0, .empty, counted 5 0.0]

theorem uneven_counted : uneven.Counted (.int 2) 2 3 0 1 where
  rule := rfl
  draws := Value.isInteger_int 2
  chains := Value.isInteger_int 3
  several := by decide
  discard := Value.isInteger_int 0
  thin := Value.isInteger_int 1
  one_le_thin := by decide
  workers := by rintro _ ⟨⟩; exact ⟨2, by decide, Value.isInteger_int 2⟩

/-- The pool of these chains. -/
def unevenPool : Pool Stream :=
  sweepCounter.pool (.int 2) (.ofInts 0 1) 2 [counted 0 0.0, .empty, counted 5 0.0]
    (numberTape.spawn 3).1

/-- Whatever the workers do, the error of the second chain is the answer. -/
theorem uneven_fails :
    uneven.Counted (.int 2) 2 3 0 1 ∧
    (∃ c, unevenPool.Reaches c ∧ c.caller = .answered (.failed (.fault .wrongType))) ∧
    ∀ c, unevenPool.Reaches c → (∀ c', ¬ unevenPool.Step c c') →
      c.caller = .answered (.failed (.fault .wrongType)) := by
  obtain ⟨-, h⟩ := parallel_agrees sweepCounter uneven (.stream numberTape) uneven_counted
  obtain ⟨workers, hw, hreach, -⟩ := h _ _ rfl rfl
  obtain rfl : 2 = workers := Except.ok.inj hw
  obtain ⟨c, hc, ho⟩ := (hreach unevenPool.initial .refl).2.1
  exact ⟨uneven_counted, ⟨c, hc, ho⟩, fun c hc => (hreach c hc).1⟩

end Gibbs
