/-
  Incomplete starts: the runs that a state without a drawn variable stops.

  A sweep refuses a state that lacks a drawn variable before it draws anything.  Nothing else in
  a run fails in this way, and what a sweep returns lacks nothing.  So the error is always about
  the start of a chain that has not drawn yet.

  * `Model.lacking`, `Model.refusal`: the drawn names that a state lacks, and the error that
    names them;
  * `sweep_of_lacking`, `kind_sweep`, `lacking_of_sweep`: one sweep;
  * `Chain.failed_cases`: how any chain fails;
  * `chain_of_missing`, `run_of_missing`: how a chain and a run fail for want of a variable;
  * `chain_of_incomplete`, `run_of_incomplete`, `refused_iff`: when they do;
  * `incomplete_starts`: all of it, with the model `alternatingPair` as an example.
-/
import Gibbs.Proofs.Chain.Resume
import Gibbs.Proofs.Model.Acceptance
import Gibbs.Proofs.Sample
import Gibbs.Proofs.Stream.Calls
import Mathlib.Data.Set.List

namespace Gibbs

/-! ## Names without values -/

namespace Model

/-- The names that a model draws and a state has no value for, in order of their first
    statement. -/
def lacking (m : Model) (s : State) : List Name := m.sampledNames.filter fun n => !s.has n.text

/-- The error about a state without values for some drawn variables. -/
def refusal (m : Model) (s : State) : Error := .stateIncomplete ((m.lacking s).map Name.text)

variable {m : Model} {s : State}

theorem mem_lacking {n : Name} : n ∈ m.lacking s ↔ m.Samples n ∧ s.has n.text = false := by
  rw [lacking, List.mem_filter, mem_sampledNames, Bool.not_eq_true']
  rfl

/-- **The names come in order** of the statements that draw them first. -/
theorem pairwise_lacking : (m.lacking s).Pairwise fun a b =>
    (m.statements.filterMap Statement.sampled?).idxOf a
      < (m.statements.filterMap Statement.sampled?).idxOf b :=
  (pairwise_eraseDups _).filter _

theorem lacking_eq_nil : m.lacking s = [] ↔ ∀ n ∈ m.sampledNames, s.has n.text = true := by
  simp [lacking, List.filter_eq_nil_iff]

theorem lacking_ne_nil : m.lacking s ≠ [] ↔ ∃ n, m.Samples n ∧ s.has n.text = false := by
  simp only [ne_eq, List.eq_nil_iff_forall_not_mem, mem_lacking, not_forall, not_not]

theorem Accepted.missing {c : CompiledStep} (hc : m.Accepted c) (s : State) :
    c.missing s = (m.lacking s).map Name.text := by
  rw [CompiledStep.missing, hc.sampled, List.filter_map]
  rfl

end Model

/-! ## One sweep -/

theorem Error.exists_of_kind {e : Error} (h : e.kind = .missingStateKey) :
    ∃ names, e = .stateIncomplete names := by
  cases e with
  | stateIncomplete names => exact ⟨names, rfl⟩
  | _ => cases h

/-- Errors of draws are not about states. -/
theorem Error.kind_ne_of_isDrawing {e : Error} (h : e.isDrawing = true) :
    e.kind ≠ .missingStateKey := by
  intro hk
  obtain ⟨names, rfl⟩ := exists_of_kind hk
  cases h

/-- Errors about arguments are not about states. -/
theorem Error.kind_ne_of_isArgument {e : Error} (h : e.isArgument = true) :
    e.kind ≠ .missingStateKey := by
  intro hk
  obtain ⟨names, rfl⟩ := exists_of_kind hk
  cases h

section Sweep

variable {m : Model} {c : CompiledStep} {s : State} {data : List Value} {r r' : Stream}

/-- **A state that lacks a drawn variable** is refused before anything is drawn. -/
theorem sweep_of_lacking (hc : m.Accepted c) (hd : data.length = m.data.length)
    (h : m.lacking s ≠ []) (r : Stream) :
    (c.sweep s data).outcome r = (.error (m.refusal s), r) := by
  have hmissing : c.missing s ≠ [] := by
    rw [hc.missing, ne_eq, List.map_eq_nil_iff]
    exact h
  rw [CompiledStep.sweep, CompiledStep.run_of_missing (by rw [hc.data, hd]) hmissing, hc.missing]
  rfl

/-- **A sweep from a complete state** may fail, but not for want of a drawn variable. -/
theorem kind_sweep (hc : m.Accepted c) (hd : data.length = m.data.length) (h : m.lacking s = [])
    {e : Error} (he : (c.sweep s data).outcome r = (.error e, r')) : e.kind ≠ .missingStateKey := by
  have hmissing : c.missing s = [] := by rw [hc.missing, h, List.map_nil]
  rw [CompiledStep.sweep, CompiledStep.run_of_complete (by rw [hc.data, hd]) hmissing] at he
  have hdraws : (Instruction.runAll Family.draw ⟨s, [], data⟩ c.instructions
      >>= fun f => pure f.state).Draws :=
    (Instruction.draws_runAll _ _).bind fun f => .pure _
  exact Error.kind_ne_of_isDrawing (Error.isDrawing_of_draws hdraws he)

/-- **What a sweep returns** lacks nothing. -/
theorem lacking_of_sweep (hc : m.compile.result = .ok c) (hd : data.length = m.data.length)
    {t : State} (ht : (c.sweep s data).outcome r = (.ok t, r')) : m.lacking t = [] := by
  by_cases h : m.lacking s = []
  · have hs := Model.lacking_eq_nil.1 h
    rcases sweep_performs hc hs hd Family.draw r with
      ⟨p, u, -, -, hu, -, -, hkeys, -⟩ | ⟨_, _, _, _, _, _, _, _, _, _, _, he⟩
    · cases hu.symm.trans ht
      refine Model.lacking_eq_nil.2 fun n hn => ?_
      rw [State.has_iff, hkeys, ← State.has_iff]
      exact hs n hn
    · cases he.symm.trans ht
  · rw [sweep_of_lacking (Model.accepted hc) hd h] at ht
    cases ht

end Sweep

/-! ## One chain -/

/-- **A chain fails** in its question or in a sweep; then it leaves what that sweep left. -/
theorem Chain.failed_cases {σ : Type} {step : State → Sampling σ State} {sched : Schedule}
    {isDone : Question σ} : ∀ {fuel done : Nat} {draws : List State} {s : State} {r : σ}
    {e : Error},
    (run step sched isDone fuel done draws s r).outcome = .failed e →
    (∃ q kept t k, isDone q kept t k = .error e) ∨
    ∃ k t q r', after step s r k = (.ok t, q) ∧ (step t).outcome q = (.error e, r') ∧
      run step sched isDone fuel done draws s r = ⟨.failed e, r', done + k⟩
  | 0, _, _, _, _, _, h => by cases h
  | fuel + 1, done, draws, s, r, e, h => by
    rw [run] at h ⊢
    rcases hs : (step s).outcome r with ⟨e' | u, r'⟩
    · rw [hs] at h
      cases h
      exact .inr ⟨0, s, r, r', rfl, hs, rfl⟩
    · simp only [hs] at h ⊢
      cases hq : isDone r' (keep sched (done + 1) draws u) u (done + 1) with
      | error e' =>
        rw [hq] at h
        cases h
        exact .inl ⟨_, _, _, _, hq⟩
      | ok answer =>
        rw [hq] at h
        cases answer with
        | true => cases h
        | false =>
          rcases failed_cases h with hq | ⟨k, t, q, r'', hk, ht, hrun⟩
          · exact .inl hq
          · refine .inr ⟨k + 1, t, q, r'', ?_, ht, ?_⟩
            · rw [Nat.add_comm k 1, after_add (k := 1) hs]
              exact hk
            · rw [Nat.add_comm k 1, ← Nat.add_assoc]
              exact hrun

/-- A rule whose question, if it is one, never fails for want of a drawn variable. -/
def Rule.IsQuiet {σ : Type} (rule : Rule σ) : Prop :=
  ∀ isDone horizon, rule = .question isDone horizon →
    ∀ r draws s k e, isDone r draws s k = .error e → e.kind ≠ .missingStateKey

theorem Rule.isQuiet_count {σ : Type} (n : Value) : (Rule.count n : Rule σ).IsQuiet := nofun

section Chains

variable {m : Model} {c : CompiledStep} {initial : State} {data : List Value} {s : Sampler}
  {sched : Schedule} {start : State} {r : Stream}

/-- The number of data arguments of a sampler that was built from a step. -/
theorem length_of_build (hc : m.Accepted c) (hs : c.build initial data = .ok s) :
    data.length = m.data.length := by
  unfold CompiledStep.build at hs
  split at hs
  · next h => rw [h, hc.data]
  · cases hs

/-- **After the first sweep** nothing is lacking. -/
theorem lacking_after (hc : m.compile.result = .ok c) (hs : c.build initial data = .ok s)
    {k : Nat} {t : State} {q : Stream} (h : Chain.after s.step start r (k + 1) = (.ok t, q)) :
    m.lacking t = [] := by
  obtain ⟨u, q', hu⟩ := Chain.after_ok_of_le h (Nat.le_succ k)
  have ht := (Chain.after_succ hu).symm.trans h
  rw [Sampler.step_of_build hs] at ht
  exact lacking_of_sweep hc (length_of_build (Model.accepted hc) hs) ht

/-- **A sweep of a chain that fails for want of a variable** is the first one, its start lacks
    the variable, and nothing was drawn. -/
theorem first_of_missing (hc : m.compile.result = .ok c) (hs : c.build initial data = .ok s)
    {k : Nat} {t : State} {q r' : Stream} {e : Error}
    (hk : Chain.after s.step start r k = (.ok t, q)) (ht : (s.step t).outcome q = (.error e, r'))
    (hkind : e.kind = .missingStateKey) :
    k = 0 ∧ m.lacking start ≠ [] ∧ e = m.refusal start ∧ r' = r := by
  have hd := length_of_build (Model.accepted hc) hs
  rw [Sampler.step_of_build hs] at ht
  cases k with
  | succ k =>
    exact absurd hkind (kind_sweep (Model.accepted hc) hd (lacking_after hc hs hk) ht)
  | zero =>
    cases hk
    by_cases hlack : m.lacking start = []
    · exact absurd hkind (kind_sweep (Model.accepted hc) hd hlack ht)
    · cases (sweep_of_lacking (Model.accepted hc) hd hlack r).symm.trans ht
      exact ⟨rfl, hlack, rfl, rfl⟩

/-- **A chain that fails for want of a variable** does so in its first sweep, and leaves its
    stream as it was. -/
theorem chain_of_missing (hc : m.compile.result = .ok c) (hs : c.build initial data = .ok s)
    {rule : Rule Stream} (hrule : rule.IsQuiet) {e : Error}
    (he : (s.chain rule sched start r).outcome = .failed e) (hkind : e.kind = .missingStateKey) :
    m.lacking start ≠ [] ∧ e = m.refusal start ∧
      s.chain rule sched start r = ⟨.failed e, r, 0⟩ := by
  -- either rule runs the loop, of which the failing sweep is the first one
  have hloop : ∀ (isDone : Question Stream) (fuel : Nat),
      (∀ q kept t k e', isDone q kept t k = .error e' → e'.kind ≠ .missingStateKey) →
      (Chain.run s.step sched isDone fuel 0 [] start r).outcome = .failed e →
      m.lacking start ≠ [] ∧ e = m.refusal start ∧
        Chain.run s.step sched isDone fuel 0 [] start r = ⟨.failed e, r, 0⟩ := by
    intro isDone fuel hquiet hrun
    rcases Chain.failed_cases hrun with ⟨q, kept, t, k, hq⟩ | ⟨k, t, q, r', hk, ht, hend⟩
    · exact absurd hkind (hquiet q kept t k e hq)
    · obtain ⟨rfl, hlack, hrefusal, rfl⟩ := first_of_missing hc hs hk ht hkind
      exact ⟨hlack, hrefusal, hend⟩
  unfold Sampler.chain Rule.run at he ⊢
  cases rule with
  | question isDone horizon => exact hloop isDone horizon (hrule isDone horizon rfl) he
  | count n =>
    dsimp only at he ⊢
    cases hn : n.truncated with
    | error f =>
      rw [hn] at he
      cases he
      exact absurd hkind nofun
    | ok i =>
      simp only [hn] at he ⊢
      cases h0 : n.equalsCount 0 with
      | true => rw [h0] at he; cases he
      | false =>
        simp only [h0, Bool.false_eq_true, if_false] at he ⊢
        exact hloop (Rule.countReached n) _ nofun he

/-- **A chain that is to make a draw** is refused if its start lacks a drawn variable. -/
theorem chain_of_incomplete (hc : m.Accepted c) (hs : c.build initial data = .ok s) {n : Value}
    {N : Int} (hn : n.truncated = .ok N) (hN : 1 ≤ N) (h : m.lacking start ≠ []) :
    s.chain (.count n) sched start r = ⟨.failed (m.refusal start), r, 0⟩ := by
  have h0 : n.equalsCount 0 = false := Value.equalsCount_of_truncated_ne hn (by omega)
  have hsweep : (s.step start).outcome r = (.error (m.refusal start), r) := by
    rw [Sampler.step_of_build hs]
    exact sweep_of_lacking hc (length_of_build hc hs) h r
  obtain ⟨fuel, hfuel⟩ : ∃ fuel, Rule.sweepBound n sched N.toNat = fuel + 1 :=
    Nat.exists_eq_add_one.2 (Rule.sweepBound_pos n sched N.toNat)
  simp only [Sampler.chain, Rule.run, hn, h0, Bool.false_eq_true, if_false, hfuel]
  exact Chain.run_of_failure hsweep

end Chains

/-! ## Runs -/

section Runs

variable {m : Model} {c : CompiledStep} {initial : State} {data : List Value} {s : Sampler}
  {p : Plan Stream} {source : Source} {C : Nat} {g : Stream} {starts : List State}
  {sched : Schedule}

/-- **A run fails for want of a variable** in the first of its chains that does not finish. -/
theorem run_of_missing (hc : m.compile.result = .ok c) (hs : c.build initial data = .ok s)
    (hrule : p.rule.IsQuiet) {e : Error} (he : (s.runChains p source).outcome = .failed e)
    (hkind : e.kind = .missingStateKey) :
    ∃ C g starts sched, p.Prepared s.initial source C g starts sched ∧
      ∃ before start r after, ∃ chains : List (List State),
        starts.zip (chainStreams g C) = before ++ (start, r) :: after ∧
        before.map (fun q => (s.chain p.rule sched q.1 q.2).outcome) = chains.map .finished ∧
        m.lacking start ≠ [] ∧ e = m.refusal start ∧
        s.chain p.rule sched start r = ⟨.failed e, r, 0⟩ := by
  rcases Sampler.prepared_cases s p source with ⟨C, g, starts, sched, hp⟩ | ⟨e', he', hargument⟩
  · rw [Sampler.outcome_runChains hp] at he
    obtain ⟨before, ⟨start, r⟩, after, chains, hsplit, hbefore, hend⟩ := runInOrder_eq_failed.1 he
    exact ⟨C, g, starts, sched, hp, before, start, r, after, chains, hsplit, hbefore,
      chain_of_missing hc hs hrule hend hkind⟩
  · cases he'.symm.trans he
    exact absurd hkind (Error.kind_ne_of_isArgument hargument)

/-- **The first incomplete start** of a run is refused, if the chains before it finish. -/
theorem run_of_incomplete (hc : m.Accepted c) (hs : c.build initial data = .ok s)
    (hp : p.Prepared s.initial source C g starts sched) {n : Value} (hrule : p.rule = .count n)
    {N : Int} (hn : n.truncated = .ok N) (hN : 1 ≤ N)
    (hfinish : ∀ q ∈ starts.zip (chainStreams g C), m.lacking q.1 = [] →
      ∃ draws, (s.chain p.rule sched q.1 q.2).outcome = .finished draws)
    {before after : List State} {start : State} (hsplit : starts = before ++ start :: after)
    (hbefore : ∀ t ∈ before, m.lacking t = []) (hstart : m.lacking start ≠ []) :
    (s.runChains p source).outcome = .failed (m.refusal start) := by
  have hlength : before.length < (chainStreams g C).length := by
    rw [length_chainStreams, ← Plan.length_startStates hp.startStates, hsplit]
    simp
  have hzip : starts.zip (chainStreams g C)
      = before.zip ((chainStreams g C).take before.length)
        ++ (start, (chainStreams g C)[before.length])
          :: after.zip ((chainStreams g C).drop (before.length + 1)) := by
    conv_lhs =>
      rw [hsplit, ← List.take_append_drop before.length (chainStreams g C),
        List.drop_eq_getElem_cons hlength]
    rw [List.zip_append (by simp; omega), List.zip_cons_cons]
  obtain ⟨chains, hchains⟩ : (before.zip ((chainStreams g C).take before.length)).map
      (fun q => (s.chain p.rule sched q.1 q.2).outcome) ∈ Set.range (List.map .finished) := by
    rw [Set.range_list_map]
    refine List.forall_mem_map.2 fun q hq => ?_
    obtain ⟨draws, hdraws⟩ := hfinish q (by rw [hzip]; exact List.mem_append_left _ hq)
      (hbefore q.1 (List.of_mem_zip hq).1)
    exact ⟨draws, hdraws.symm⟩
  rw [Sampler.outcome_runChains hp, runInOrder_eq_failed]
  refine ⟨_, _, _, chains, hzip, hchains.symm, ?_⟩
  rw [hrule, chain_of_incomplete hc hs hn hN hstart]

/-- **A counted run fails for want of a variable** exactly if some start is incomplete. -/
theorem refused_iff (hc : m.compile.result = .ok c) (hs : c.build initial data = .ok s)
    (hp : p.Prepared s.initial source C g starts sched) {n : Value} (hrule : p.rule = .count n)
    {N : Int} (hn : n.truncated = .ok N) (hN : 1 ≤ N)
    (hfinish : ∀ q ∈ starts.zip (chainStreams g C), m.lacking q.1 = [] →
      ∃ draws, (s.chain p.rule sched q.1 q.2).outcome = .finished draws) :
    (∃ e, (s.runChains p source).outcome = .failed e ∧ e.kind = .missingStateKey) ↔
      ∃ start ∈ starts, m.lacking start ≠ [] := by
  constructor
  · rintro ⟨e, he, hkind⟩
    rw [Sampler.outcome_runChains hp] at he
    obtain ⟨before, ⟨start, r⟩, after, chains, hsplit, -, hend⟩ := runInOrder_eq_failed.1 he
    have hmem : (start, r) ∈ starts.zip (chainStreams g C) := by
      rw [hsplit]
      exact List.mem_append_right _ List.mem_cons_self
    have hquiet : p.rule.IsQuiet := hrule ▸ Rule.isQuiet_count n
    exact ⟨start, (List.of_mem_zip hmem).1, (chain_of_missing hc hs hquiet hend hkind).1⟩
  · rintro ⟨t, ht, hlack⟩
    obtain ⟨start, hfirst⟩ := Option.isSome_iff_exists.1
      (List.find?_isSome (p := fun u => !(m.lacking u).isEmpty).2 ⟨t, ht, by simpa using hlack⟩)
    obtain ⟨hstart, before, after, hsplit, hbefore⟩ := List.find?_eq_some_iff_append.1 hfirst
    refine ⟨m.refusal start, ?_, rfl⟩
    refine run_of_incomplete (Model.accepted hc) hs hp hrule hn hN hfinish hsplit ?_ ?_
    · intro u hu
      simpa using hbefore u hu
    · simpa using hstart

end Runs

/-- **Missing values are only found before the first draw of a chain.**

    A sweep of an accepted model with the right number of data arguments fails for want of a
    drawn variable exactly if its state lacks one.  Then the error lists the drawn variables that
    the state lacks, all of them and no other ones, in order of their first statement, and the
    randomness has not moved.  What a sweep returns lacks nothing.

    A chain, whatever its rule and its schedule, only fails in this way if its start lacks a
    variable; then it fails in its first sweep and leaves its stream as it was.  A run only fails
    in this way in such a chain, after the chains before it have finished.  A run of at least one
    draw whose chains finish if their starts lack nothing fails in this way exactly if some start
    lacks a variable, and lists what the first such start lacks. -/
theorem incomplete_starts {m : Model} {c : CompiledStep} (hc : m.compile.result = .ok c)
    {initial : State} {data : List Value} {s : Sampler} (hs : c.build initial data = .ok s) :
    (∀ u r,
      ((∃ e q, (c.sweep u data).outcome r = (.error e, q) ∧ e.kind = .missingStateKey) ↔
        ∃ n, m.Samples n ∧ u.has n.text = false) ∧
      (∀ e q, (c.sweep u data).outcome r = (.error e, q) → e.kind = .missingStateKey →
        e = .stateIncomplete ((m.lacking u).map Name.text) ∧ q = r) ∧
      (∀ n, n ∈ m.lacking u ↔ m.Samples n ∧ u.has n.text = false) ∧
      ((m.lacking u).Pairwise fun a b =>
        (m.statements.filterMap Statement.sampled?).idxOf a
          < (m.statements.filterMap Statement.sampled?).idxOf b) ∧
      ∀ v q, (c.sweep u data).outcome r = (.ok v, q) →
        ∀ n, m.Samples n → v.has n.text = true) ∧
    (∀ rule sched start r e, rule.IsQuiet → (s.chain rule sched start r).outcome = .failed e →
      e.kind = .missingStateKey →
      m.lacking start ≠ [] ∧ e = m.refusal start ∧
        s.chain rule sched start r = ⟨.failed e, r, 0⟩) ∧
    (∀ p source e, p.rule.IsQuiet → (s.runChains p source).outcome = .failed e →
      e.kind = .missingStateKey →
      ∃ C g starts sched, p.Prepared s.initial source C g starts sched ∧
        ∃ before start r after, ∃ chains : List (List State),
          starts.zip (chainStreams g C) = before ++ (start, r) :: after ∧
          before.map (fun q => (s.chain p.rule sched q.1 q.2).outcome) = chains.map .finished ∧
          m.lacking start ≠ [] ∧ e = m.refusal start ∧
          s.chain p.rule sched start r = ⟨.failed e, r, 0⟩) ∧
    ∀ p source C g starts sched n N, p.Prepared s.initial source C g starts sched →
      p.rule = .count n → n.truncated = .ok N → 1 ≤ N →
      (∀ q ∈ starts.zip (chainStreams g C), m.lacking q.1 = [] →
        ∃ draws, (s.chain p.rule sched q.1 q.2).outcome = .finished draws) →
      ((∃ e, (s.runChains p source).outcome = .failed e ∧ e.kind = .missingStateKey) ↔
        ∃ start ∈ starts, m.lacking start ≠ []) ∧
      ∀ before start after, starts = before ++ start :: after →
        (∀ t ∈ before, m.lacking t = []) → m.lacking start ≠ [] →
        (s.runChains p source).outcome = .failed (m.refusal start) := by
  have ha := Model.accepted hc
  have hd := length_of_build ha hs
  refine ⟨fun u r => ⟨⟨?_, ?_⟩, ?_, fun n => Model.mem_lacking, Model.pairwise_lacking, ?_⟩,
    fun _ _ _ _ _ hrule he hkind => chain_of_missing hc hs hrule he hkind,
    fun _ _ _ hrule he hkind => run_of_missing hc hs hrule he hkind, ?_⟩
  · rintro ⟨e, q, he, hkind⟩
    exact Model.lacking_ne_nil.1 fun h => kind_sweep ha hd h he hkind
  · intro h
    exact ⟨m.refusal u, r, sweep_of_lacking ha hd (Model.lacking_ne_nil.2 h) r, rfl⟩
  · intro e q he hkind
    have hlack : m.lacking u ≠ [] := fun h => kind_sweep ha hd h he hkind
    cases (sweep_of_lacking ha hd hlack r).symm.trans he
    exact ⟨rfl, rfl⟩
  · intro v q hv n hn
    exact Model.lacking_eq_nil.1 (lacking_of_sweep hc hd hv) n (mem_sampledNames.2 hn)
  · intro p source C g starts sched n N hp hrule hn hN hfinish
    exact ⟨refused_iff hc hs hp hrule hn hN hfinish,
      fun before start after hsplit hbefore hstart =>
        run_of_incomplete ha hs hp hrule hn hN hfinish hsplit hbefore hstart⟩

/-! ## A chain whose start is incomplete -/

/-- A model that draws `y`, then `x`, then `y` again. -/
def alternatingPair : Model :=
  let x : Name := ⟨"x", isIdentifier_x⟩
  let y : Name := ⟨"y", isIdentifier_y⟩
  let z : Name := ⟨"z", isIdentifier_z⟩
  let d : Distribution := ⟨.normal, [("mu", .var z), ("sigma", .literal (.float 1.0))]⟩
  ⟨x, [z], [.sample y d, .sample x d, .sample y d]⟩

/-- A state with values for both variables. -/
def pairStart : State := ⟨[("x", .int 1), ("y", .int 2)], by decide⟩

/-- A state with a value that is not drawn. -/
def otherStart : State := ⟨[("k", .int 7)], by decide⟩

/-- Two chains that keep two sweeps each, of which the second one has nothing to start from. -/
def halfStarted : Plan Stream :=
  { twoByTwo with discard := .int 0, thin := .int 1, starts := .each [pairStart, otherStart] }

theorem halfStarted_inRange : halfStarted.InRange (.int 2) 2 2 0 1 :=
  { twoByTwo_inRange with
    discard := Value.isInteger_int 0, thin := Value.isInteger_int 1, one_le_thin := le_rfl }

/-- The state after a sweep that draws `t` for `x`, and `u` for `y` in the end. -/
def pairEnd (t u : Float) : State := ⟨[("x", .double t), ("y", .double u)], by simp⟩

/-- The first chain reads the numbers of its child three at a time, around two, and finishes.  The
    run fails with what the start of the second one lacks. -/
theorem halfStarted_refused : ∃ c s, alternatingPair.compile.result = .ok c ∧
    c.build pairStart [.float 2.0] = .ok s ∧
    halfStarted.Prepared s.initial (.stream numberTape) 2 numberTape [pairStart, otherStart]
      (.ofInts 0 1) ∧
    halfStarted.rule = .count (.int 2) ∧ (Value.int 2).truncated = .ok 2 ∧
    (∀ q ∈ [pairStart, otherStart].zip (chainStreams numberTape 2),
      alternatingPair.lacking q.1 = [] →
      ∃ draws, (s.chain halfStarted.rule (.ofInts 0 1) q.1 q.2).outcome = .finished draws) ∧
    (s.chain halfStarted.rule (.ofInts 0 1) pairStart (numberTape.child 0)).outcome
      = .finished [pairEnd 4.5 4.75, pairEnd 4.25 4.5] ∧
    (s.runChains halfStarted (.stream numberTape)).outcome
      = .failed (.stateIncomplete ["y", "x"]) ∧
    s.chain halfStarted.rule (.ofInts 0 1) otherStart (numberTape.child 1)
      = ⟨.failed (.stateIncomplete ["y", "x"]), numberTape.child 1, 0⟩ := by
  obtain ⟨c, hc, s, hs, hstarts, hfirst⟩ : ∃ c, alternatingPair.compile.result = .ok c ∧
      ∃ s, c.build pairStart [.float 2.0] = .ok s ∧
      halfStarted.startStates s.initial 2 = .ok [pairStart, otherStart] ∧
      (s.chain halfStarted.rule (.ofInts 0 1) pairStart (numberTape.child 0)).outcome
        = .finished [pairEnd 4.5 4.75, pairEnd 4.25 4.5] := ⟨_, rfl, _, rfl, rfl, rfl⟩
  have hp : halfStarted.Prepared s.initial (.stream numberTape) 2 numberTape
      [pairStart, otherStart] (.ofInts 0 1) := halfStarted_inRange.prepared rfl hstarts
  have hlack : alternatingPair.lacking otherStart ≠ [] := by decide
  have hfinish : ∀ q ∈ [pairStart, otherStart].zip (chainStreams numberTape 2),
      alternatingPair.lacking q.1 = [] →
      ∃ draws, (s.chain halfStarted.rule (.ofInts 0 1) q.1 q.2).outcome = .finished draws := by
    change ∀ q ∈ [(pairStart, numberTape.child 0), (otherStart, numberTape.child 1)], _
    simp only [List.forall_mem_cons]
    exact ⟨fun _ => ⟨_, hfirst⟩, fun h => absurd h hlack, fun q hq => absurd hq List.not_mem_nil⟩
  obtain ⟨-, hchain, -, hrun⟩ := incomplete_starts hc hs
  have hrefused := (hrun halfStarted (.stream numberTape) 2 numberTape _ _ (.int 2) 2 hp rfl rfl
    (by decide) hfinish).2 [pairStart] otherStart [] rfl (by decide) hlack
  refine ⟨c, s, hc, hs, hp, rfl, rfl, hfinish, hfirst, hrefused, ?_⟩
  exact (hchain _ _ _ _ _ (Rule.isQuiet_count (.int 2))
    (congrArg ChainEnd.outcome (chain_of_incomplete (Model.accepted hc) hs rfl (by decide) hlack))
    rfl).2.2

end Gibbs
