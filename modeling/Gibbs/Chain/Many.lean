/-
  Runs of several chains.

  A single chain draws from the stream that it is given.  Several chains draw from its
  children, one each, which are split off before any chain starts; the stream itself stays
  where it is.  So a chain depends on nothing but its own child and its own start, and it does
  not matter in which order, or how many at a time, the chains are run.

  * `runInOrder`: chains one after the other, up to the first failure;
  * `Sampler.runChains`: a checked run on a source of randomness, with everything that it
    leaves behind;
  * `runInOrder_finished`: if all chains finish, each of them is the chain that its own
    stream and start make;
  * `runInOrder_append`, `runInOrder_eq_failed`: otherwise the first chain that fails is the
    failure of the run.
-/
import Gibbs.Chain.Plan
import Gibbs.Sampler

namespace Gibbs

/-! ## Chains in order -/

/-- Chains run one after the other, each on its own randomness; the first one that fails ends
    the run.  The randomness that is left is returned for all of them. -/
def runInOrder {σ : Type} (run : State → σ → ChainEnd σ) :
    List (State × σ) → Outcome (List (List State)) × List (ChainEnd σ)
  | [] => (.finished [], [])
  | (s, r) :: rest =>
    let e := run s r
    match e.outcome with
    | .failed err => (.failed err, e :: rest.map fun (_, r) => ⟨.running, r, 0⟩)
    | .running => (.running, e :: rest.map fun (_, r) => ⟨.running, r, 0⟩)
    | .finished draws =>
      let (o, ends) := runInOrder run rest
      (o.andThen fun chains => .ok (draws :: chains), e :: ends)

theorem runInOrder_singleton {σ : Type} (run : State → σ → ChainEnd σ) (start : State) (r : σ) :
    (runInOrder run [(start, r)]).1 = (run start r).outcome.andThen fun draws => .ok [draws] := by
  simp only [runInOrder]
  split <;> next h => rw [h]; rfl

/-- **Chains do not influence each other:** a finished run consists of the chains that each
    start and randomness make by themselves. -/
theorem runInOrder_finished {σ : Type} {run : State → σ → ChainEnd σ} {l : List (State × σ)}
    {chains : List (List State)} (h : (runInOrder run l).1 = .finished chains) :
    l.map (fun p => (run p.1 p.2).outcome) = chains.map .finished := by
  induction l generalizing chains with
  | nil =>
    simp only [runInOrder, Outcome.finished.injEq] at h
    subst h
    rfl
  | cons p l ih =>
    obtain ⟨s, r⟩ := p
    cases hr : (run s r).outcome with
    | failed e => simp [runInOrder, hr] at h
    | running => simp [runInOrder, hr] at h
    | finished draws =>
      simp only [runInOrder, hr] at h
      cases ho : (runInOrder run l).1 with
      | failed e => simp [ho, Outcome.andThen] at h
      | running => simp [ho, Outcome.andThen] at h
      | finished rest =>
        simp only [ho, Outcome.andThen, Outcome.ofExcept, Outcome.finished.injEq] at h
        subst h
        simp [hr, ih ho]

/-- **Chains that finish** leave the outcome to the chains after them. -/
theorem runInOrder_append {σ : Type} {run : State → σ → ChainEnd σ} {l m : List (State × σ)}
    {chains : List (List State)}
    (h : l.map (fun p => (run p.1 p.2).outcome) = chains.map .finished) :
    (runInOrder run (l ++ m)).1 = (runInOrder run m).1.andThen fun more => .ok (chains ++ more) := by
  induction l generalizing chains with
  | nil =>
    obtain rfl : chains = [] := List.map_eq_nil_iff.1 h.symm
    show _ = (runInOrder run m).1.andThen .ok
    cases ho : (runInOrder run m).1 <;> exact ho
  | cons p l ih =>
    obtain ⟨s, r⟩ := p
    obtain ⟨draws, rest, rfl, hd, hrest⟩ := List.map_eq_cons_iff.1 h.symm
    simp only [List.cons_append, runInOrder, ← hd, ih hrest.symm]
    cases (runInOrder run m).1 <;> rfl

/-- **The first chain that fails** is the failure of the run. -/
theorem runInOrder_eq_failed {σ : Type} {run : State → σ → ChainEnd σ} {l : List (State × σ)}
    {e : Error} :
    (runInOrder run l).1 = .failed e ↔
      ∃ before p after, ∃ chains : List (List State), l = before ++ p :: after ∧
        before.map (fun p => (run p.1 p.2).outcome) = chains.map .finished ∧
        (run p.1 p.2).outcome = .failed e := by
  constructor
  · intro h
    induction l with
    | nil => simp [runInOrder] at h
    | cons p l ih =>
      obtain ⟨s, r⟩ := p
      cases hr : (run s r).outcome with
      | failed e' =>
        simp only [runInOrder, hr, Outcome.failed.injEq] at h
        exact ⟨[], (s, r), l, [], rfl, rfl, h ▸ hr⟩
      | running => simp [runInOrder, hr] at h
      | finished draws =>
        simp only [runInOrder, hr] at h
        cases ho : (runInOrder run l).1 with
        | finished chains => simp [ho, Outcome.andThen, Outcome.ofExcept] at h
        | running => simp [ho, Outcome.andThen] at h
        | failed e' =>
          simp only [ho, Outcome.andThen, Outcome.failed.injEq] at h
          obtain ⟨before, p, after, chains, rfl, hb, hp⟩ := ih (h ▸ ho)
          exact ⟨(s, r) :: before, p, after, draws :: chains, rfl, by simp [hr, hb], hp⟩
  · rintro ⟨before, ⟨s, r⟩, after, chains, rfl, hb, hp⟩
    rw [runInOrder_append hb]
    simp only [runInOrder, hp, Outcome.andThen]

/-- A run whose chains all come to an end comes to an end. -/
theorem runInOrder_ne_running {σ : Type} {run : State → σ → ChainEnd σ} {l : List (State × σ)}
    (h : ∀ p ∈ l, (run p.1 p.2).outcome ≠ .running) : (runInOrder run l).1 ≠ .running := by
  induction l with
  | nil => simp [runInOrder]
  | cons p l ih =>
    obtain ⟨s, r⟩ := p
    have ih := ih fun p hp => h p (List.mem_cons_of_mem _ hp)
    have hp : (run s r).outcome ≠ .running := h (s, r) List.mem_cons_self
    simp only [runInOrder]
    split
    · simp
    · contradiction
    · cases ho : (runInOrder run l).1 with
      | running => exact absurd ho ih
      | finished chains => simp [Outcome.andThen, Outcome.ofExcept]
      | failed e => simp [Outcome.andThen]

/-! ## Checked runs -/

/-- What a run of several chains leaves behind. -/
structure RunEnd where
  outcome : Outcome (List (List State))
  source : Source
  /-- the streams that chains drew from, if they were split off -/
  children : List Stream
  /-- the consultations of the caller's question -/
  consulted : List (Nat × Nat)
  notes : List String
  warnings : List String

/-- A run that ends before any chain. -/
def RunEnd.refused (source : Source) (e : Error) : RunEnd :=
  ⟨.failed e, source, [], [], [], []⟩

/-- The note on chains that are run one after the other. -/
def sequentialNote (chains : Nat) : String :=
  "Sequential sampling (" ++ toString chains ++ " chain" ++ (if 1 < chains then "s" else "")
    ++ " in 1 job)"

/-- The note on chains that are run at the same time. -/
def parallelNote (chains workers : Nat) : String :=
  "Parallel sampling (" ++ toString chains ++ " chains in " ++ toString workers ++ " threads)"

/-- The warning about a single chain that was to be run in parallel. -/
def singleChainWarning : String :=
  "Parallel sampling was requested for a single chain. Running sequentially."

namespace Sampler

/-- One chain of a sampler. -/
def chain (s : Sampler) (rule : Rule Stream) (sched : Schedule) (start : State) (r : Stream) :
    ChainEnd Stream := rule.run s.step sched start r

/-- The notes and warnings of a run. -/
def announcements (p : Plan Stream) (chains : Nat) :
    Except Error (List String × List String) :=
  if chains = 1 then
    .ok ([sequentialNote 1], if p.parallel then [singleChainWarning] else [])
  else if p.parallel then do return ([parallelNote chains (← p.workerCount chains)], [])
  else .ok ([sequentialNote chains], [])

/-- Checked chains on an open stream. -/
def runOpen (s : Sampler) (p : Plan Stream) (source : Source) (stream : Stream) (chains : Nat)
    (starts : List State) : RunEnd :=
  let (streams, stream) := if chains = 1 then ([stream], stream) else stream.spawn chains
  let children := if chains = 1 then [] else streams
  let prepared : Except Error (Schedule × List String × List String) := do
    let sched ← p.schedule
    let (notes, warnings) ← announcements p chains
    return (sched, notes, warnings)
  match prepared with
  | .error e => ⟨.failed e, source.close stream, children, [], [], []⟩
  | .ok (sched, notes, warnings) =>
    let (outcome, ends) := runInOrder (s.chain p.rule sched) (starts.zip streams)
    let left := ends.map ChainEnd.left
    let consulted := if p.rule.isQuestion then
        consultations sched (ends.foldl (fun k e => k + e.sweeps) 0)
      else []
    if chains = 1 then
      ⟨outcome, source.close (left.headD stream), [], consulted, notes, warnings⟩
    else ⟨outcome, source.close stream, left, consulted, notes, warnings⟩

/-- A run of several chains on a source of randomness. -/
def runChains (s : Sampler) (p : Plan Stream) (source : Source) : RunEnd :=
  let prepared : Except Error (Stream × Nat × List State) := do
    p.check
    let chains ← p.chainCount
    let stream ← source.openStream
    let starts ← p.startStates s.initial chains
    return (stream, chains, starts)
  match prepared with
  | .error e => .refused source e
  | .ok (stream, chains, starts) => s.runOpen p source stream chains starts

end Sampler

end Gibbs
