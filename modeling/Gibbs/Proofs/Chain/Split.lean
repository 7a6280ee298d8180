/-
  Runs of several chains as runs of single chains.

  Each chain of a run is the only chain of a run on its own child of the stream and from its
  own start.  A child depends only on its number, so neither the other chains nor how many
  there are make a difference, and the stream itself is not drawn from.

  * `Plan.single`: the plan of one chain from a state;
  * `outcome_single`: the run of such a plan is one chain;
  * `chain_of_finished`: what a chain of a finished run is;
  * `chains_split`: a finished run as runs of single chains, with the chains of `counters` as
    an example.
-/
import Gibbs.Proofs.Chain.Prepared
import Gibbs.Proofs.Chain.Trajectory

namespace Gibbs

/-! ## Single chains -/

/-- The plan of a single chain from a state, with all other arguments as they are. -/
def Plan.single (p : Plan Stream) (start : State) : Plan Stream :=
  { p with chains := .int 1, starts := .shared start }

/-- A single chain may stop by any rule that several chains may stop by. -/
theorem Plan.check_single {p : Plan Stream} (h : p.check = .ok ()) (start : State) :
    (p.single start).check = .ok () := by
  obtain ⟨-, hthin, hdiscard, hrule, hworkers⟩ := check_eq_ok.1 h
  refine check_eq_ok.2 ⟨rfl, hthin, hdiscard, ?_, hworkers⟩
  simp only [checkRule, single] at hrule ⊢
  split
  · rfl
  · next n hn => rwa [hn] at hrule

theorem Plan.Prepared.single {p : Plan Stream} {initial : State} {source : Source} {C : Nat}
    {g : Stream} {starts : List State} {sched : Schedule}
    (h : p.Prepared initial source C g starts sched) (start : State) (child : Stream) :
    (p.single start).Prepared initial (.stream child) 1 child [start] sched where
  check := check_single h.check start
  chainCount := rfl
  openStream := rfl
  startStates := rfl
  schedule := h.schedule
  announcements := ⟨_, rfl⟩

namespace Sampler

variable {s : Sampler} {p : Plan Stream} {source : Source} {C : Nat} {g : Stream}
  {starts : List State} {sched : Schedule} {chains : List (List State)}

/-- The run of a single chain on a stream. -/
theorem outcome_single (h : p.Prepared s.initial source C g starts sched) (start : State)
    (child : Stream) :
    (s.runChains (p.single start) (.stream child)).outcome
      = (s.chain p.rule sched start child).outcome.andThen fun draws => .ok [draws] :=
  outcome_runChains_one (h.single start child)

/-! ## Several chains -/

/-- **The chains of a finished run:** each of them has its own start and its own child of the
    stream, and is the chain that these make by themselves. -/
theorem chain_of_finished (h : p.Prepared s.initial source C g starts sched) (h2 : 2 ≤ C)
    (hf : (s.runChains p source).outcome = .finished chains) {i : Nat} (hi : i < C) :
    ∃ start chain, starts[i]? = some start ∧ chains[i]? = some chain ∧
      (s.chain p.rule sched start (g.child (g.spawned + i))).outcome = .finished chain := by
  have hall := runInOrder_finished ((outcome_runChains h).symm.trans hf)
  obtain ⟨start, hstart⟩ : ∃ start, starts[i]? = some start :=
    ⟨_, List.getElem?_eq_getElem (by rwa [Plan.length_startStates h.startStates])⟩
  have hzip : (starts.zip (chainStreams g C))[i]? = some (start, g.child (g.spawned + i)) :=
    List.getElem?_zip_eq_some.2 ⟨hstart, getElem?_chainStreams h2 hi⟩
  have hi' := congrArg (·[i]?) hall
  simp only [List.getElem?_map, hzip, Option.map_some] at hi'
  obtain ⟨chain, hchain, hc⟩ := Option.map_eq_some_iff.1 hi'.symm
  exact ⟨start, chain, hstart, hchain, hc.symm⟩

theorem length_of_finished (h : p.Prepared s.initial source C g starts sched) (h2 : 2 ≤ C)
    (hf : (s.runChains p source).outcome = .finished chains) : chains.length = C := by
  have hall := congrArg List.length
    (runInOrder_finished ((outcome_runChains h).symm.trans hf))
  simpa [chainStreams, if_neg (by omega : ¬ C = 1), Stream.spawn,
    Plan.length_startStates h.startStates] using hall.symm

end Sampler

/-- **Several chains are single chains.**  A run of `C ≥ 2` chains does not draw from its
    stream, whether it finishes or not: all it does is to give out `C` children, after which
    every call is answered as before.  If the run finishes, it has `C` chains, and chain `i` is
    the only chain of a run on the `i`-th child and from the `i`-th start.  So another run on
    the same source, of another number `C' ≥ 2` of chains, has the same chain `i` if it has the
    same start `i`; it does not matter whether chains run in parallel, or in how many
    threads. -/
theorem chains_split (s : Sampler) (p : Plan Stream) (source : Source) {C : Nat}
    (hC : p.chains.IsInteger C) (h2 : 2 ≤ C) :
    ((s.runChains p source).source = source ∨
      ∃ g, source.openStream = .ok g ∧
        (s.runChains p source).source = source.close (g.skipChildren C) ∧
        (g.skipChildren C).calls = g.calls ∧
        ∀ c k, (Stream.call c k).outcome (g.skipChildren C)
          = (((Stream.call c k).outcome g).1,
              ((Stream.call c k).outcome g).2.skipChildren C)) ∧
    ∀ chains, (s.runChains p source).outcome = .finished chains →
      ∃ g starts, source.openStream = .ok g ∧ p.startStates s.initial C = .ok starts ∧
        chains.length = C ∧
        (∀ i < C, ∃ child start chain, (g.spawn C).1[i]? = some child ∧
          starts[i]? = some start ∧ chains[i]? = some chain ∧
          (s.runChains (p.single start) (.stream child)).outcome = .finished [chain]) ∧
        ∀ p' C' chains', p'.rule = p.rule → p'.thin = p.thin → p'.discard = p.discard →
          p'.chains.IsInteger C' → 2 ≤ C' →
          (s.runChains p' source).outcome = .finished chains' →
          ∃ starts', p'.startStates s.initial C' = .ok starts' ∧
            ∀ i < min C C', starts'[i]? = starts[i]? → chains'[i]? = chains[i]? := by
  have hcount := Plan.chainCount_of_isInteger hC
  constructor
  · rcases s.source_runChains hcount h2 with h | ⟨g, hg, h⟩
    · exact Or.inl h
    · exact Or.inr ⟨g, hg, h, g.calls_skipChildren C, g.call_skipChildren C⟩
  · intro chains hf
    obtain ⟨C₀, g, starts, sched, hp⟩ := s.prepared_of_finished hf
    obtain rfl : C₀ = C := Except.ok.inj (hp.chainCount.symm.trans hcount)
    refine ⟨g, starts, hp.openStream, hp.startStates, s.length_of_finished hp h2 hf, ?_, ?_⟩
    · intro i hi
      obtain ⟨start, chain, hs, hc, hrun⟩ := s.chain_of_finished hp h2 hf hi
      refine ⟨_, start, chain, Stream.getElem?_spawn hi, hs, hc, ?_⟩
      rw [Sampler.outcome_single hp, hrun]; rfl
    · intro p' C' chains' hrule hthin hdiscard hC' h2' hf'
      obtain ⟨C₁, g', starts', sched', hp'⟩ := s.prepared_of_finished hf'
      obtain rfl : C₁ = C' :=
        Except.ok.inj (hp'.chainCount.symm.trans (Plan.chainCount_of_isInteger hC'))
      obtain rfl : g' = g := Except.ok.inj (hp'.openStream.symm.trans hp.openStream)
      have hsched : p'.schedule = p.schedule := by simp only [Plan.schedule, hthin, hdiscard]
      obtain rfl : sched' = sched :=
        Except.ok.inj (hp'.schedule.symm.trans (hsched.trans hp.schedule))
      refine ⟨starts', hp'.startStates, fun i hi hss => ?_⟩
      obtain ⟨start, chain, hs, hc, hrun⟩ := s.chain_of_finished hp h2 hf (by omega : i < C₀)
      obtain ⟨start', chain', hs', hc', hrun'⟩ :=
        s.chain_of_finished hp' h2' hf' (by omega : i < C₁)
      obtain rfl : start' = start := Option.some.inj (hs'.symm.trans (hss.trans hs))
      rw [hrule, hrun] at hrun'
      rw [hc, hc', Outcome.finished.inj hrun']

/-! ## Chains with starts of their own -/

/-- Chains that count their sweeps from given numbers, with two draws each. -/
def counters (starts : List Int) : Plan Stream where
  rule := .count (.int 2)
  chains := .int starts.length
  thin := .int 3
  discard := .int 0
  workers? := none
  parallel := false
  starts := .each (starts.map fun i => counted i 0.0)

/-- Two chains, and three chains of which the first one has the same start.  Each chain reads the
    numbers of its own child. -/
theorem counters_split :
    (counters [0, 10]).chains.IsInteger (2 : Nat) ∧ 2 ≤ 2 ∧
    ∃ chains chains',
      (sweepCounter.runChains (counters [0, 10]) (.stream numberTape)).outcome
        = .finished chains ∧
      (sweepCounter.runChains (counters [0, 20, 30]) (.stream numberTape)).outcome
        = .finished chains' ∧
      chains = [[counted 1 2.25, counted 4 3.0], [counted 11 4.25, counted 14 5.0]] ∧
      chains'[0]? = chains[0]? ∧
      ∃ child, (numberTape.spawn 2).1[1]? = some child ∧
        (sweepCounter.runChains ((counters [0, 10]).single (counted 10 0.0))
            (.stream child)).outcome
          = .finished [[counted 11 4.25, counted 14 5.0]] := by
  have hC : (counters [0, 10]).chains.IsInteger (2 : Nat) := Value.isInteger_int 2
  obtain ⟨-, h⟩ := chains_split sweepCounter (counters [0, 10]) (.stream numberTape) hC le_rfl
  obtain ⟨g, starts, hg, hstarts, -, hsingle, hother⟩ := h _ rfl
  obtain rfl : numberTape = g := Except.ok.inj hg
  obtain rfl : [counted 0 0.0, counted 10 0.0] = starts := Except.ok.inj hstarts
  obtain ⟨starts', hstarts', hsame⟩ := hother (counters [0, 20, 30]) 3 _ rfl rfl rfl
    (Value.isInteger_int 3) (by decide) rfl
  obtain rfl : [counted 0 0.0, counted 20 0.0, counted 30 0.0] = starts' :=
    Except.ok.inj hstarts'
  obtain ⟨child, start, chain, hchild, hstart, hchain, hrun⟩ := hsingle 1 (by decide)
  obtain rfl : counted 10 0.0 = start := Option.some.inj hstart
  obtain rfl : [counted 11 4.25, counted 14 5.0] = chain := Option.some.inj hchain
  exact ⟨hC, le_rfl, _, _, rfl, rfl, rfl, hsame 0 (by decide) rfl, child, hchild, hrun⟩

end Gibbs
