/-
  Runs one after the other.

  A source that is used for several runs gives out the children of its stream in turn: every
  run of several chains uses the next ones, a run of a single chain uses none.  So no child is
  used twice, and a run of many chains can be split into runs of fewer ones.

  * `Sampler.KeepsChildren`: samplers that do not split their stream themselves, as those of
    compiled steps do not;
  * `Source.Offers`: which child of a stream a source gives out next;
  * `Successive`, `Successive.offers`: successful runs one after the other, and the child that
    is next after them;
  * `Sampler.UsesChildren`, `Source.Offers.uses`: which children the chains of a run are made of;
  * `outcome_runChains_append`: a run of many chains as two runs;
  * `successive_runs`: what runs one after the other use, with runs of `sweepCounter` as an example.
-/
import Gibbs.Proofs.Chain.Split
import Gibbs.Proofs.Stream.Calls

namespace Gibbs

/-! ## Samplers that leave the children alone -/

section
variable {c : CompiledStep} {s : Sampler}

/-- A sampler whose transitions leave the children of their stream alone.  Compiled steps do; a
    function of the caller's might split the stream itself. -/
def Sampler.KeepsChildren (s : Sampler) : Prop :=
  match s.transition with
  | .compiled _ => True
  | .function f => ∀ state (g : Stream), g.SameChildren ((f state s.data).outcome g).2

theorem Sampler.KeepsChildren.step (h : s.KeepsChildren) (state : State) (g : Stream) :
    g.SameChildren ((s.step state).outcome g).2 := by
  unfold KeepsChildren at h
  unfold Sampler.step
  cases ht : s.transition with
  | compiled c => exact (c.calls_sweep state s.data).sameChildren g
  | function f =>
    rw [ht] at h
    exact h state g

/-- **A chain** leaves the children alone if its sweeps do. -/
theorem Chain.sameChildren_run {step : State → Sampling Stream State} {sched : Schedule}
    {isDone : Question Stream}
    (hstep : ∀ state (g : Stream), g.SameChildren ((step state).outcome g).2) :
    ∀ (fuel done : Nat) (draws : List State) (state : State) (g : Stream),
      g.SameChildren (run step sched isDone fuel done draws state g).left
  | 0, _, _, _, g => .refl g
  | fuel + 1, done, draws, state, g => by
    have hg := hstep state g
    unfold run
    rcases ho : (step state).outcome g with ⟨e | t, g'⟩
    · rw [ho] at hg
      exact hg
    · rw [ho] at hg
      dsimp only
      split
      · exact hg
      · exact hg
      · exact hg.trans (sameChildren_run hstep fuel _ _ t g')

theorem Sampler.KeepsChildren.chain (h : s.KeepsChildren) (rule : Rule Stream) (sched : Schedule)
    (start : State) (g : Stream) : g.SameChildren (s.chain rule sched start g).left := by
  unfold Sampler.chain Rule.run
  cases rule with
  | question isDone horizon => exact Chain.sameChildren_run h.step _ _ _ _ g
  | count n =>
    dsimp only
    split
    · exact .refl g
    · split
      · exact .refl g
      · exact Chain.sameChildren_run h.step _ _ _ _ g

end

/-! ## The next child -/

theorem Seeded.seeds_ofSeeds (s : SeedSequence) : (Seeded.ofSeeds s).seeds = s := rfl

theorem Stream.child_seeded (g : Seeded) (k : Nat) :
    (seeded g).child k = seeded (.ofSeeds (g.seeds.child k)) := rfl

namespace Source

/-- Whether runs that use a source go on where the runs before them stopped: a stream and the
    ambient one do, and a seed sequence remembers at least its children. -/
def isShared : Source → Bool
  | stream _ => true
  | ambient _ => true
  | sequence _ => true
  | _ => false

/-- A source of which the next child is the `k`-th child of a stream, the one after it the
    next one, and so on. -/
structure Offers (source : Source) (g : Stream) (k : Nat) : Prop where
  shared : source.isShared = true
  opened : ∃ h, source.openStream = .ok h ∧ h.spawned = k ∧ ∀ i, h.child i = g.child i

variable {source : Source} {g h : Stream} {k : Nat}

theorem Offers.of_openStream (hs : source.isShared = true) (hg : source.openStream = .ok g) :
    source.Offers g g.spawned :=
  ⟨hs, g, hg, rfl, fun _ => rfl⟩

/-- **A source after its stream was used** has the children that the stream has left. -/
theorem Offers.close (ho : source.Offers g k) {left : Stream}
    (hl : ∀ i, left.child i = g.child i) : (source.close left).Offers g left.spawned := by
  obtain ⟨hs, h, hopen, -, hchild⟩ := ho
  cases source with
  | stream _ => exact ⟨rfl, left, rfl, rfl, hl⟩
  | ambient _ => exact ⟨rfl, left, rfl, rfl, hl⟩
  | sequence q =>
    obtain rfl : .seeded (.ofSeeds q) = h := Except.ok.inj hopen
    cases left with
    | seeded l =>
      refine ⟨rfl, .seeded (.ofSeeds l.seeds), rfl, ?_, fun i => ?_⟩
      · rw [Stream.spawned, Seeded.seeds_ofSeeds, Stream.spawned]
      · rw [Stream.child_seeded, Seeded.seeds_ofSeeds, ← Stream.child_seeded, hl i]
    | tape t =>
      have hchildren := (hl 0).trans (hchild 0).symm
      simp only [Stream.child, reduceCtorEq] at hchildren
  | seed _ => cases hs
  | unsplittable => cases hs

end Source

/-- The children that a run of a plan uses: one for every chain, none for a single chain. -/
def Plan.childCount (p : Plan Stream) : Nat :=
  match p.chainCount with
  | .ok C => if C = 1 then 0 else C
  | .error _ => 0

theorem Plan.childCount_one {p : Plan Stream} (h : p.chainCount = .ok 1) : p.childCount = 0 := by
  rw [childCount, h]; rfl

theorem Plan.childCount_several {p : Plan Stream} {C : Nat} (h : p.chainCount = .ok C)
    (hC : C ≠ 1) : p.childCount = C := by
  rw [childCount, h]
  exact if_neg hC

/-- The children that several runs use. -/
def childrenUsed (calls : List (Sampler × Plan Stream)) : Nat :=
  (calls.map fun call => call.2.childCount).sum

/-- Successful runs one after the other on a source, and the source after them. -/
inductive Successive : Source → List (Sampler × Plan Stream) → Source → Prop
  | nil (source : Source) : Successive source [] source
  | cons {source source' : Source} {s : Sampler} {p : Plan Stream} {chains : List (List State)}
      {calls : List (Sampler × Plan Stream)}
      (hrun : (s.runChains p source).outcome = .finished chains)
      (hrest : Successive (s.runChains p source).source calls source') :
      Successive source ((s, p) :: calls) source'

namespace Source.Offers

variable {source source' : Source} {g : Stream} {k : Nat} {s : Sampler} {p : Plan Stream}
  {chains : List (List State)} {calls : List (Sampler × Plan Stream)}

/-- **One run** uses the next children, as many as its plan says. -/
theorem run (ho : source.Offers g k) (hrun : (s.runChains p source).outcome = .finished chains)
    (hs : p.chainCount = .ok 1 → s.KeepsChildren) :
    (s.runChains p source).source.Offers g (k + p.childCount) := by
  obtain ⟨C, h, starts, sched, hp⟩ := s.prepared_of_finished hrun
  obtain ⟨h', hopen, hk, hchild⟩ := ho.opened
  obtain rfl : h' = h := Except.ok.inj (hopen.symm.trans hp.openStream)
  by_cases hC : C = 1
  · subst hC
    obtain ⟨start, rfl⟩ := List.length_eq_one_iff.1 (Plan.length_startStates hp.startStates)
    have hleft := (hs hp.chainCount).chain p.rule sched start h'
    rw [Sampler.source_runChains_one hp, Plan.childCount_one hp.chainCount, Nat.add_zero, ← hk,
      ← hleft.spawned]
    exact ho.close fun i => (hleft.child i).trans (hchild i)
  · rw [Sampler.source_runChains_several hp hC, Plan.childCount_several hp.chainCount hC, ← hk,
      ← Stream.spawned_skipChildren]
    exact ho.close fun i => (Stream.child_skipChildren h' C i).trans (hchild i)

end Source.Offers

/-- **Several runs** use the next children, those of an earlier run before those of a later
    one. -/
theorem Successive.offers {source source' : Source} {calls : List (Sampler × Plan Stream)}
    (h : Successive source calls source') {g : Stream} {k : Nat} (ho : source.Offers g k)
    (hs : ∀ call ∈ calls, call.2.chainCount = .ok 1 → call.1.KeepsChildren) :
    source'.Offers g (k + childrenUsed calls) := by
  induction h generalizing k with
  | nil source => exact ho
  | @cons source source' s p chains calls hrun hrest ih =>
    have hnext := ih (ho.run hrun (hs _ List.mem_cons_self)) fun call hcall =>
      hs call (List.mem_cons_of_mem _ hcall)
    rwa [Nat.add_assoc] at hnext

/-! ## The chains of a run -/

/-- Children of a stream with consecutive numbers. -/
def Stream.childrenFrom (g : Stream) (first count : Nat) : List Stream :=
  (List.range count).map fun i => g.child (first + i)

theorem Stream.childrenFrom_add (g : Stream) (first m n : Nat) :
    g.childrenFrom first (m + n) = g.childrenFrom first m ++ g.childrenFrom (first + m) n := by
  simp only [childrenFrom, List.range_add, List.map_append, List.map_map, Function.comp_def,
    Nat.add_assoc]

/-- **Children of a seeded generator** with different numbers are different. -/
theorem Stream.child_inj {q : Seeded} {i j : Nat} (h : (seeded q).child i = (seeded q).child j) :
    i = j := by
  rw [child_seeded, child_seeded] at h
  have hseeds := congrArg Seeded.seeds (seeded.inj h)
  rw [Seeded.seeds_ofSeeds, Seeded.seeds_ofSeeds] at hseeds
  simpa [SeedSequence.child] using hseeds

/-- What a run of several chains is made of: each chain is the only chain of a run on a child
    of its own, and the children have consecutive numbers. -/
def Sampler.UsesChildren (s : Sampler) (p : Plan Stream) (g : Stream) (first : Nat)
    (chains : List (List State)) : Prop :=
  ∃ starts, p.startStates s.initial chains.length = .ok starts ∧
    ∀ i chain, chains[i]? = some chain → ∃ start, starts[i]? = some start ∧
      (s.runChains (p.single start) (.stream (g.child (first + i)))).outcome = .finished [chain]

namespace Source.Offers

variable {source : Source} {g h : Stream} {k C : Nat} {s : Sampler} {p : Plan Stream}
  {chains : List (List State)}

theorem chainStreams (ho : source.Offers g k) (hopen : source.openStream = .ok h) (hC : C ≠ 1) :
    Gibbs.chainStreams h C = g.childrenFrom k C := by
  obtain ⟨h', hopen', hk, hchild⟩ := ho.opened
  obtain rfl : h' = h := Except.ok.inj (hopen'.symm.trans hopen)
  rw [Gibbs.chainStreams, if_neg hC, Stream.spawn, Stream.childrenFrom]
  simp only [hk, hchild]

/-- **The chains of a finished run** use the next children of its source. -/
theorem uses (ho : source.Offers g k) (hcount : p.chainCount = .ok C) (h2 : 2 ≤ C)
    (hrun : (s.runChains p source).outcome = .finished chains) :
    chains.length = C ∧ s.UsesChildren p g k chains := by
  obtain ⟨C', h, starts, sched, hp⟩ := s.prepared_of_finished hrun
  obtain rfl : C' = C := Except.ok.inj (hp.chainCount.symm.trans hcount)
  obtain ⟨h', hopen, hk, hchild⟩ := ho.opened
  obtain rfl : h' = h := Except.ok.inj (hopen.symm.trans hp.openStream)
  have hlength := Sampler.length_of_finished hp h2 hrun
  refine ⟨hlength, starts, hlength.symm ▸ hp.startStates, fun i chain hi => ?_⟩
  obtain ⟨hlt, -⟩ := List.getElem?_eq_some_iff.1 hi
  obtain ⟨start, chain', hs, hc, hfinished⟩ :=
    s.chain_of_finished hp h2 hrun (hlength ▸ hlt)
  obtain rfl : chain' = chain := Option.some.inj (hc.symm.trans hi)
  refine ⟨start, hs, ?_⟩
  rw [← hk, ← hchild, Sampler.outcome_single hp, hfinished]
  rfl

end Source.Offers

/-! ## A run of many chains as two runs -/

/-- The chains of one run and then those of another one; the first run that does not finish is
    the outcome of both. -/
def Outcome.append {α : Type} : Outcome (List α) → Outcome (List α) → Outcome (List α)
  | finished l, finished m => finished (l ++ m)
  | finished _, o => o
  | o, _ => o

/-- **Chains in order** may be run in two parts. -/
theorem runInOrder_append_eq {σ : Type} (run : State → σ → ChainEnd σ) (l m : List (State × σ)) :
    (runInOrder run (l ++ m)).1 = (runInOrder run l).1.append (runInOrder run m).1 := by
  induction l with
  | nil =>
    rw [List.nil_append, runInOrder]
    cases (runInOrder run m).1 <;> rfl
  | cons q l ih =>
    obtain ⟨start, r⟩ := q
    simp only [List.cons_append, runInOrder]
    split
    · rfl
    · rfl
    · simp only [ih]
      cases (runInOrder run l).1 <;> cases (runInOrder run m).1 <;> rfl

/-- A plan with another number of chains and other starts. -/
def Plan.ofChains (p : Plan Stream) (chains : Value) (starts : Starts) : Plan Stream :=
  { p with chains := chains, starts := starts }

/-- The checks of the arguments of a run, and its schedule if they pass. -/
def Plan.checked (p : Plan Stream) (C : Nat) : Except Error Schedule := do
  p.check
  let sched ← p.schedule
  let _ ← Sampler.announcements p C
  return sched

section
variable {p : Plan Stream} {v v' : Value} {a b : Starts} {C C' : Nat}

/-- Whether a run has notes does not depend on how many of several chains there are. -/
theorem Plan.announcements_ofChains (p : Plan Stream) (v v' : Value) (a b : Starts) (hC : 2 ≤ C)
    (hC' : 2 ≤ C') :
    (∃ e, Sampler.announcements (p.ofChains v a) C = .error e ∧
      Sampler.announcements (p.ofChains v' b) C' = .error e) ∨
    ∃ notes notes', Sampler.announcements (p.ofChains v a) C = .ok notes ∧
      Sampler.announcements (p.ofChains v' b) C' = .ok notes' := by
  unfold Sampler.announcements
  rw [if_neg (by omega : ¬ C = 1), if_neg (by omega : ¬ C' = 1)]
  cases hb : p.parallel with
  | false =>
    simp only [ofChains, hb, Bool.false_eq_true, if_false]
    exact .inr ⟨_, _, rfl, rfl⟩
  | true =>
    simp only [ofChains, hb, if_true, workerCount]
    cases p.workers? with
    | none => exact .inr ⟨_, _, rfl, rfl⟩
    | some w =>
      dsimp only
      cases orError w.truncated with
      | error e => exact .inl ⟨e, rfl, rfl⟩
      | ok i => exact .inr ⟨_, _, rfl, rfl⟩

/-- **The checks** do not depend on how many of several chains there are. -/
theorem Plan.checked_ofChains (hv : v.IsInteger C) (hC : 2 ≤ C) (hv' : v'.IsInteger C')
    (hC' : 2 ≤ C') : (p.ofChains v a).checked C = (p.ofChains v' b).checked C' := by
  have hone : ∀ {w : Value} {D : Nat}, w.IsInteger D → 2 ≤ D →
      atLeast 1 w (.tooFewChains w) = .ok () ∧ w.equalsCount 1 = false := by
    refine fun {w D} hw hD => ⟨atLeast_of_isInteger hw (by omega), ?_⟩
    rw [Value.equalsCount_of_isInteger hw]
    simp; omega
  have hcheck : (p.ofChains v a).check = (p.ofChains v' b).check := by
    simp only [check, checkRule, ofChains, (hone hv hC).1, (hone hv hC).2, (hone hv' hC').1,
      (hone hv' hC').2]
  have hsched : (p.ofChains v a).schedule = (p.ofChains v' b).schedule := rfl
  simp only [checked, hcheck, hsched]
  cases (p.ofChains v' b).check with
  | error e => rfl
  | ok u =>
    cases (p.ofChains v' b).schedule with
    | error e => rfl
    | ok sched =>
      rcases announcements_ofChains p v v' a b hC hC' with
        ⟨e, h, h'⟩ | ⟨notes, notes', h, h'⟩
      · rw [h, h']
      · rw [h, h']; rfl

/-- A run whose stream and starts are there is decided by its checks and its chains. -/
theorem Sampler.outcome_runChains_eq {s : Sampler} {source : Source} {h : Stream}
    {starts : List State} (hcount : p.chainCount = .ok C) (hopen : source.openStream = .ok h)
    (hstarts : p.startStates s.initial C = .ok starts) :
    (s.runChains p source).outcome = match p.checked C with
      | .error e => .failed e
      | .ok sched => (runInOrder (s.chain p.rule sched) (starts.zip (chainStreams h C))).1 := by
  cases hcheck : p.check with
  | error e => simp [runChains, Plan.checked, hcheck, bind, Except.bind, RunEnd.refused]
  | ok u =>
    cases hsched : p.schedule with
    | error e =>
      simp [runChains, Plan.checked, runOpen, hcheck, hsched, hcount, hopen, hstarts, bind,
        Except.bind, pure, Except.pure]
    | ok sched =>
      cases hnotes : announcements p C with
      | error e =>
        simp [runChains, Plan.checked, runOpen, hcheck, hsched, hcount, hopen, hstarts, hnotes,
          bind, Except.bind, pure, Except.pure]
      | ok notes =>
        have hp : p.Prepared s.initial source C h starts sched :=
          ⟨hcheck, hcount, hopen, hstarts, hsched, notes, hnotes⟩
        rw [outcome_runChains hp]
        simp [Plan.checked, hcheck, hsched, hnotes, bind, Except.bind, pure, Except.pure]

end

/-- **A run of many chains as two runs:** the first one uses the children that the source
    offers, the second one those after them. -/
theorem Sampler.outcome_runChains_append {s : Sampler} {p : Plan Stream} {source source' : Source}
    {g : Stream} {k n m : Nat} {v v' w : Value} {a b c : Starts} {xs ys : List State}
    (ho : source.Offers g k) (hv : v.IsInteger n) (hn : 2 ≤ n) (hv' : v'.IsInteger m) (hm : 2 ≤ m)
    (hw : w.IsInteger (n + m : Nat))
    (hxs : (p.ofChains v a).startStates s.initial n = .ok xs)
    (hys : (p.ofChains v' b).startStates s.initial m = .ok ys)
    (hzs : (p.ofChains w c).startStates s.initial (n + m) = .ok (xs ++ ys))
    (ho' : ∀ chains, (s.runChains (p.ofChains v a) source).outcome = .finished chains →
      source'.Offers g (k + n)) :
    (s.runChains (p.ofChains w c) source).outcome
      = (s.runChains (p.ofChains v a) source).outcome.append
          (s.runChains (p.ofChains v' b) source').outcome := by
  obtain ⟨h, hopen, -⟩ := ho.opened
  have hfirst := s.outcome_runChains_eq (Plan.chainCount_of_isInteger hv) hopen hxs
  have hall := s.outcome_runChains_eq (Plan.chainCount_of_isInteger hw) hopen hzs
  rw [Plan.checked_ofChains (b := a) hw (by omega) hv hn] at hall
  cases hchecked : (p.ofChains v a).checked n with
  | error e =>
    rw [hchecked] at hfirst hall
    rw [hfirst, hall]; rfl
  | ok sched =>
    have hlength : xs.length = (g.childrenFrom k n).length := by
      rw [Plan.length_startStates hxs]; simp [Stream.childrenFrom]
    rw [hchecked] at hfirst hall
    dsimp only at hfirst hall
    rw [ho.chainStreams hopen (by omega)] at hfirst hall
    rw [Stream.childrenFrom_add, List.zip_append hlength, runInOrder_append_eq] at hall
    have hrule : (p.ofChains w c).rule = (p.ofChains v a).rule := rfl
    rw [hall, hrule, ← hfirst]
    cases hchains : (s.runChains (p.ofChains v a) source).outcome with
    | failed e => rfl
    | running => rfl
    | finished chains =>
      obtain ⟨h', hopen', -⟩ := (ho' chains hchains).opened
      have hsecond := s.outcome_runChains_eq (Plan.chainCount_of_isInteger hv') hopen' hys
      rw [Plan.checked_ofChains (b := a) hv' hm hv hn, hchecked] at hsecond
      dsimp only at hsecond
      rw [(ho' chains hchains).chainStreams hopen' (by omega)] at hsecond
      rw [hsecond]; rfl

/-! ## Runs in a row -/

theorem childrenUsed_append (done rest : List (Sampler × Plan Stream)) :
    childrenUsed (done ++ rest) = childrenUsed done + childrenUsed rest := by
  simp [childrenUsed]

/-- Runs of single chains use no children. -/
theorem childrenUsed_of_single : ∀ {calls : List (Sampler × Plan Stream)},
    (∀ call ∈ calls, call.2.chainCount = .ok 1) → childrenUsed calls = 0
  | [], _ => rfl
  | call :: calls, h => by
    have ih := childrenUsed_of_single fun c hc => h c (List.mem_cons_of_mem call hc)
    rw [childrenUsed, List.map_cons, List.sum_cons, ← childrenUsed, ih,
      Plan.childCount_one (h call List.mem_cons_self)]

/-- **Runs one after the other** on a stream, the ambient one or a seed sequence.

    After any successful runs, the children that their plans use up are given out and no other
    ones, and a run of `C ≥ 2` chains that follows uses the `C` next children, one for each
    chain; it draws nothing from the stream itself, which answers every call as before.  So a
    later run uses children with greater numbers, and those are other children if the stream
    is a seeded generator.

    A run of `n` chains and then, with or without runs of single chains in between, one of `m`
    chains have, one after the other, the chains that a run of `n + m` chains has on the source
    as it was at first; if one of the chains fails, then so does the run of all of them, and in
    the same way. -/
theorem successive_runs {source : Source} {g : Stream} (hshared : source.isShared = true)
    (hg : source.openStream = .ok g) :
    (∀ done source', Successive source done source' →
      (∀ call ∈ done, call.2.chainCount = .ok 1 → call.1.KeepsChildren) →
      source'.Offers g (g.spawned + childrenUsed done) ∧
      ∀ (s : Sampler) p C chains, p.chainCount = .ok C → 2 ≤ C →
        (s.runChains p source').outcome = .finished chains →
        chains.length = C ∧ s.UsesChildren p g (g.spawned + childrenUsed done) chains ∧
        (∀ rest, ∀ i < C, g.spawned + childrenUsed done + i
          < g.spawned + childrenUsed (done ++ (s, p) :: rest)) ∧
        ∃ h, source'.openStream = .ok h ∧
          (s.runChains p source').source = source'.close (h.skipChildren C) ∧
          (h.skipChildren C).calls = h.calls ∧
          ∀ c k, (Stream.call c k).outcome (h.skipChildren C)
            = (((Stream.call c k).outcome h).1,
                ((Stream.call c k).outcome h).2.skipChildren C)) ∧
    (∀ q, g = .seeded q → ∀ i j, g.child i = g.child j → i = j) ∧
    ∀ (s : Sampler) (p : Plan Stream) (n m : Nat) (v v' w : Value) (a b c : Starts)
      (xs ys : List State) (between : List (Sampler × Plan Stream)) (source' : Source),
      v.IsInteger n → 2 ≤ n → v'.IsInteger m → 2 ≤ m → w.IsInteger (n + m : Nat) →
      (p.ofChains v a).startStates s.initial n = .ok xs →
      (p.ofChains v' b).startStates s.initial m = .ok ys →
      (p.ofChains w c).startStates s.initial (n + m) = .ok (xs ++ ys) →
      Successive (s.runChains (p.ofChains v a) source).source between source' →
      (∀ call ∈ between, call.2.chainCount = .ok 1 ∧ call.1.KeepsChildren) →
      (s.runChains (p.ofChains w c) source).outcome
        = (s.runChains (p.ofChains v a) source).outcome.append
            (s.runChains (p.ofChains v' b) source').outcome := by
  have hfirst := Source.Offers.of_openStream hshared hg
  refine ⟨fun done source' hdone hkeeps => ?_, ?_, ?_⟩
  · have ho := hdone.offers hfirst hkeeps
    refine ⟨ho, fun s p C chains hcount h2 hrun => ?_⟩
    obtain ⟨C', h, starts, sched, hp⟩ := s.prepared_of_finished hrun
    obtain rfl : C' = C := Except.ok.inj (hp.chainCount.symm.trans hcount)
    obtain ⟨hlength, huses⟩ := ho.uses hcount h2 hrun
    refine ⟨hlength, huses, fun rest i hi => ?_, h, hp.openStream,
      Sampler.source_runChains_several hp (by omega), h.calls_skipChildren C',
      h.call_skipChildren C'⟩
    have hcall : childrenUsed ((s, p) :: rest) = C' + childrenUsed rest := by
      simp [childrenUsed, Plan.childCount_several hcount (by omega : C' ≠ 1)]
    rw [childrenUsed_append, hcall]
    omega
  · rintro q rfl i j hij
    exact Stream.child_inj hij
  · intro s p n m v v' w a b c xs ys between source' hv hn hv' hm hw hxs hys hzs hbetween hsingle
    refine Sampler.outcome_runChains_append hfirst hv hn hv' hm hw hxs hys hzs fun chains hrun => ?_
    have hcount := Plan.chainCount_of_isInteger (p := p.ofChains v a) hv
    have hnext := hfirst.run hrun fun h1 => absurd (Except.ok.inj (hcount.symm.trans h1)) (by omega)
    have hafter := hbetween.offers hnext fun call hcall _ => (hsingle call hcall).2
    rwa [Plan.childCount_several hcount (by omega : n ≠ 1),
      childrenUsed_of_single fun call hcall => (hsingle call hcall).1, Nat.add_zero] at hafter

/-! ## Runs on one tape -/

theorem sweepCounter_keepsChildren : sweepCounter.KeepsChildren := by
  intro s g
  dsimp only [sweepCounter]
  split
  · exact ((Sampling.Calls.call (P := fun _ => True) _ _).bind fun _ => .pure _).sameChildren g
  · exact .refl g

/-- One draw of every chain, from the initial state on. -/
def oneDraw : Plan Stream := .ofRule (.count (.int 1))

/-- Two chains, a single one in between and two more chains, and four chains at once.  Each chain
    reads the first number of its own child. -/
theorem sweepCounter_split :
    (Source.stream numberTape).isShared = true ∧
    (Source.stream numberTape).openStream = .ok numberTape ∧
    ∃ source',
      Successive (.stream numberTape)
        [(sweepCounter, oneDraw.ofChains (.int 2) .initial), (sweepCounter, oneDraw)] source' ∧
      source'.Offers numberTape 2 ∧
      (sweepCounter.runChains (oneDraw.ofChains (.int 2) .initial) (.stream numberTape)).outcome
        = .finished [[counted 1 2.25], [counted 1 4.25]] ∧
      (sweepCounter.runChains (oneDraw.ofChains (.int 2) .initial) source').outcome
        = .finished [[counted 1 6.25], [counted 1 8.25]] ∧
      sweepCounter.UsesChildren (oneDraw.ofChains (.int 2) .initial) numberTape 2
        [[counted 1 6.25], [counted 1 8.25]] ∧
      (sweepCounter.runChains (oneDraw.ofChains (.int 4) .initial) (.stream numberTape)).outcome
        = .finished [[counted 1 2.25], [counted 1 4.25], [counted 1 6.25], [counted 1 8.25]] := by
  have htwo : (sweepCounter.runChains (oneDraw.ofChains (.int 2) .initial)
      (.stream numberTape)).outcome = .finished [[counted 1 2.25], [counted 1 4.25]] := rfl
  have hone : (sweepCounter.runChains oneDraw
      (sweepCounter.runChains (oneDraw.ofChains (.int 2) .initial)
        (.stream numberTape)).source).outcome = .finished [[counted 1 0.25]] := rfl
  have hopen : (Source.stream numberTape).openStream = .ok numberTape := rfl
  have hbetween : Successive (sweepCounter.runChains (oneDraw.ofChains (.int 2) .initial)
      (.stream numberTape)).source [(sweepCounter, oneDraw)] _ := .cons hone (.nil _)
  have hdone : Successive (.stream numberTape)
      [(sweepCounter, oneDraw.ofChains (.int 2) .initial), (sweepCounter, oneDraw)] _ :=
    .cons htwo hbetween
  obtain ⟨hhistory, -, hsplit⟩ := successive_runs rfl hopen
  obtain ⟨hoffers, huses⟩ := hhistory _ _ hdone (by simp [sweepCounter_keepsChildren])
  obtain ⟨-, huses, -⟩ := huses sweepCounter (oneDraw.ofChains (.int 2) .initial) 2
    [[counted 1 6.25], [counted 1 8.25]] rfl le_rfl rfl
  refine ⟨rfl, hopen, _, hdone, hoffers, htwo, rfl, huses, ?_⟩
  exact hsplit sweepCounter oneDraw 2 2 (.int 2) (.int 2) (.int 4) .initial .initial .initial
    _ _ _ _ (Value.isInteger_int 2) le_rfl (Value.isInteger_int 2) le_rfl (Value.isInteger_int 4)
    rfl rfl rfl hbetween (by simp [sweepCounter_keepsChildren, oneDraw]; rfl)

end Gibbs
