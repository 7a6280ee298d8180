/-
  Rejected runs, and what a run leaves of its stream.

  All arguments of a run are looked at before anything is asked from its stream, and the
  children of several chains are split off before any chain starts.  So a call that is rejected
  leaves its stream as it was, a sweep that is refused does too, and several chains give out
  their children and nothing else.

  * `Plan.HasFiniteCounts`, `Plan.IsFaulty`: finite counts, and the faults of a call;
  * `Plan.kind_of_check`, `Sampler.exists_refusal`: a call with a fault is refused, whatever the
    sampler; `Plan.HasFiniteCounts.exists_prepared`: a call without one is not;
  * `Sampler.source_of_refuses`: a single chain whose first sweep is refused;
  * `Sampler.source_of_several`: several chains;
  * `rejected_calls_keep_stream`: all of it, with `tangled` and `halfStarted` as examples.
-/
import Gibbs.Chain.Sample
import Gibbs.Proofs.Chain.Counting
import Gibbs.Proofs.Starts

namespace Gibbs

open Assembly

/-! ## Streams and sources -/

/-- Where a stream stands: the place on its tape, or the bits of its generator. -/
def Stream.position : Stream → Nat ⊕ Pcg
  | tape t => .inl t.position
  | seeded g => .inr g.bits

@[simp] theorem Stream.position_skipChildren (s : Stream) (n : Nat) :
    (s.skipChildren n).position = s.position := by
  cases s <;> rfl

/-- A stream that was not used leaves its source as it was. -/
theorem Source.close_openStream {source : Source} {g : Stream} (h : source.openStream = .ok g) :
    source.close g = source := by
  cases source with
  | seed n => rfl
  | unsplittable => rfl
  | sequence | stream | ambient => cases h; rfl

/-! ## Faults -/

namespace Value

variable {v : Value} {bound : Int}

theorem exists_lessThan (h : v.isFinite = true) (bound : Int) : ∃ b, v.lessThan bound = .ok b := by
  rcases isFinite_cases h with ⟨i, hi⟩ | ⟨x, hx⟩
  · exact ⟨_, lessThan_of_isInteger hi bound⟩
  · exact ⟨_, hx.lessThan bound⟩

theorem lessThan_eq_false (h : v.isFinite = true) (hne : v.lessThan bound ≠ .ok true) :
    v.lessThan bound = .ok false := by
  obtain ⟨b, hb⟩ := exists_lessThan h bound
  cases b with
  | true => exact absurd hb hne
  | false => exact hb

end Value

namespace Plan

/-- A plan whose counts are finite numbers. -/
def HasFiniteCounts {σ : Type} (p : Plan σ) : Prop := ∀ v, p.Counts v → v.isFinite = true

/-- The faults of a call: a count that is out of its range, a question for another number of
    chains than one, starts in another number than the chains.  There may be several of them. -/
inductive IsFaulty {σ : Type} (p : Plan σ) : Prop where
  | chains (h : p.chains.lessThan 1 = .ok true)
  | thin (h : p.thin.lessThan 1 = .ok true)
  | discard (h : p.discard.lessThan 0 = .ok true)
  | draws (n : Value) (hrule : p.rule = .count n) (h : n.lessThan 0 = .ok true)
  | workers (w : Value) (hw : p.workers? = some w) (h : w.lessThan 1 = .ok true)
  | question (isDone : Question σ) (horizon : Nat) (hrule : p.rule = .question isDone horizon)
      (h : p.chains.equalsCount 1 = false)
  | starts (ss : List State) (C : Nat) (hstarts : p.starts = .each ss) (hC : p.chainCount = .ok C)
      (h : ss.length ≠ C)

section Checks

variable {σ : Type} {p : Plan σ}

theorem kind_of_atLeast {bound : Int} {v : Value} {e e' : Error} (hv : v.isFinite = true)
    (he : e.kind = .fault .badValue) (h : atLeast bound v e = .error e') :
    e'.kind = .fault .badValue := by
  obtain ⟨b, hb⟩ := Value.exists_lessThan hv bound
  rw [atLeast, hb] at h
  cases b with
  | true => cases h; exact he
  | false => cases h

/-- **A check of finite counts** fails with a value error. -/
theorem kind_of_check {p : Plan Stream} (hf : p.HasFiniteCounts) {e : Error}
    (h : p.check = .error e) : e.kind = .fault .badValue := by
  rcases check_eq_error h with rfl | ⟨bound, v, e', hv, h, -, hkind⟩
  · rfl
  · exact kind_of_atLeast (hf v hv) hkind h

theorem check_of_not_faulty (hf : p.HasFiniteCounts) (h : ¬ p.IsFaulty) : p.check = .ok () := by
  refine check_eq_ok.2 ⟨?_, ?_, ?_, ?_, fun w hw => ?_⟩
  · exact Value.lessThan_eq_false (hf _ .chains) fun hless => h (.chains hless)
  · exact Value.lessThan_eq_false (hf _ .thin) fun hless => h (.thin hless)
  · exact Value.lessThan_eq_false (hf _ .discard) fun hless => h (.discard hless)
  · unfold checkRule
    split
    · next isDone horizon hrule =>
      cases hone : p.chains.equalsCount 1 with
      | true => rfl
      | false => exact absurd (.question isDone horizon hrule hone) h
    · next n hrule =>
      exact atLeast_eq_ok.2
        (Value.lessThan_eq_false (hf n (.draws hrule)) fun hless => h (.draws n hrule hless))
  · exact Value.lessThan_eq_false (hf w (.workers hw)) fun hless => h (.workers w hw hless)

/-- **The fault that passes the checks** is about the starts. -/
theorem starts_of_check (hcheck : p.check = .ok ()) (h : p.IsFaulty) :
    ∃ ss C, p.starts = .each ss ∧ p.chainCount = .ok C ∧ ss.length ≠ C := by
  obtain ⟨hchains, hthin, hdiscard, hrule, hworkers⟩ := check_eq_ok.1 hcheck
  cases h with
  | chains h => cases hchains.symm.trans h
  | thin h => cases hthin.symm.trans h
  | discard h => cases hdiscard.symm.trans h
  | draws n hn h =>
    rw [checkRule, hn] at hrule
    cases (atLeast_eq_ok.1 hrule).symm.trans h
  | workers w hw h => cases (hworkers w hw).symm.trans h
  | question isDone horizon hq h =>
    rw [checkRule, hq] at hrule
    dsimp only at hrule
    rw [h] at hrule
    cases hrule
  | starts ss C hstarts hC h => exact ⟨ss, C, hstarts, hC, h⟩

end Checks

/-- **A call without a fault** reaches its chains. -/
theorem HasFiniteCounts.exists_prepared {p : Plan Stream} {source : Source} {g : Stream}
    (hf : p.HasFiniteCounts) (h : ¬ p.IsFaulty) (hg : source.openStream = .ok g) :
    ∃ C sched, 1 ≤ C ∧ ∀ initial, ∃ starts, p.Prepared initial source C g starts sched := by
  have hcheck := check_of_not_faulty hf h
  obtain ⟨hchains, hthin, hdiscard, -, hworkers⟩ := check_eq_ok.1 hcheck
  obtain ⟨C, hC1, hC⟩ := Value.exists_truncated_pos (hf _ .chains) hchains
  obtain ⟨d, hd⟩ := Value.exists_truncated (hf _ .discard) hdiscard
  obtain ⟨t, ht1, ht⟩ := Value.exists_truncated_pos (hf _ .thin) hthin
  -- the number of draws plays no part before the first sweep
  have hcut : p.Cut (.int 0) 0 C d t := ⟨rfl, hC, hC1, hd, ht, ht1, fun w hw =>
    Value.exists_truncated_pos (hf w (.workers hw)) (hworkers w hw)⟩
  refine ⟨C, .ofInts d t, hC1, fun initial => ?_⟩
  obtain ⟨starts, hstarts⟩ : ∃ starts, p.startStates initial C = .ok starts := by
    unfold startStates
    split
    · exact ⟨_, rfl⟩
    · exact ⟨_, rfl⟩
    · next ss hss =>
      have hlength : ss.length = C := by
        by_contra hne
        exact h (.starts ss C hss (by rw [chainCount, hC]; rfl) hne)
      exact ⟨ss, if_pos hlength⟩
  exact ⟨starts, hcut.prepared hcheck hg hstarts⟩

end Plan

/-! ## Runs -/

namespace Sampler

variable {s : Sampler} {p : Plan Stream} {source : Source} {g : Stream}

/-- **A call with a fault is refused** before any chain, whatever the sampler. -/
theorem exists_refusal (hf : p.HasFiniteCounts) (h : p.IsFaulty) (hg : source.openStream = .ok g) :
    ∃ e, e.kind = .fault .badValue ∧ ∀ s : Sampler, s.runChains p source = .refused source e := by
  cases hcheck : p.check with
  | error e =>
    refine ⟨e, Plan.kind_of_check hf hcheck, fun s => ?_⟩
    simp [runChains, hcheck, bind, Except.bind]
  | ok u =>
    obtain ⟨ss, C, hstarts, hC, hne⟩ := Plan.starts_of_check hcheck h
    refine ⟨.startCount ss.length C, rfl, fun s => ?_⟩
    have hstates : p.startStates s.initial C = .error (.startCount ss.length C) := by
      simp only [Plan.startStates, hstarts, if_neg hne]
    simp [runChains, hcheck, hC, hg, hstates, bind, Except.bind]

/-- **Several chains** give out their children, whatever becomes of them. -/
theorem source_of_several {C : Nat} {starts : List State} (hcheck : p.check = .ok ())
    (hC : p.chainCount = .ok C) (h2 : 2 ≤ C) (hg : source.openStream = .ok g)
    (hstarts : p.startStates s.initial C = .ok starts) :
    (s.runChains p source).source = source.close (g.skipChildren C) := by
  rw [runChains_of_started hcheck hC hg hstarts, source_runOpen (by omega)]

end Sampler

/-! ## Refused sweeps -/

/-- A compiled step refuses data in a wrong number, and a state without a drawn variable. -/
def CompiledStep.Refuses (c : CompiledStep) (data : List Value) (s : State) : Prop :=
  data.length ≠ c.data.length ∨ ∃ n ∈ c.sampled, s.has n.text = false

theorem CompiledStep.sweep_of_refuses {c : CompiledStep} {data : List Value} {s : State}
    (h : c.Refuses data s) (r : Stream) : ∃ e, (c.sweep s data).outcome r = (.error e, r) := by
  by_cases hl : data.length = c.data.length
  · obtain ⟨n, hn, hs⟩ := h.resolve_left (not_not_intro hl)
    have hmissing : n.text ∈ c.missing s :=
      List.mem_filter.2 ⟨List.mem_map_of_mem hn, by rw [hs]; rfl⟩
    exact ⟨_, run_of_missing hl (List.ne_nil_of_mem hmissing) r⟩
  · exact ⟨_, run_of_length_ne hl r⟩

/-- **A chain whose first sweep fails** without a draw leaves its randomness as it was. -/
theorem Rule.left_of_failure {σ : Type} (rule : Rule σ) {step : State → Sampling σ State}
    {sched : Schedule} {start : State} {r : σ} {e : Error}
    (h : (step start).outcome r = (.error e, r)) : (rule.run step sched start r).left = r := by
  have hloop : ∀ (isDone : Question σ) (fuel : Nat),
      (Chain.run step sched isDone fuel 0 [] start r).left = r := by
    intro isDone fuel
    cases fuel with
    | zero => rfl
    | succ fuel => rw [Chain.run_of_failure h]
  unfold run
  split
  · exact hloop _ _
  · split
    · rfl
    · split_ifs
      · rfl
      · exact hloop _ _

namespace Sampler

variable {s : Sampler} {c : CompiledStep} {p : Plan Stream} {source : Source}

/-- **A single chain whose start or data are refused** leaves its source as it was. -/
theorem source_of_refuses (ht : s.transition = .compiled c) (hC : p.chainCount = .ok 1)
    (h : ∀ starts, p.startStates s.initial 1 = .ok starts → ∀ u ∈ starts, c.Refuses s.data u) :
    (s.runChains p source).source = source := by
  simp only [runChains]
  split
  · rfl
  · next g C starts hp =>
    obtain ⟨⟨⟩, -, hp⟩ := bind_eq_ok.1 hp
    obtain ⟨_, hcount, hp⟩ := bind_eq_ok.1 hp
    obtain ⟨_, hopen, hp⟩ := bind_eq_ok.1 hp
    obtain ⟨_, hstarts, hp⟩ := bind_eq_ok.1 hp
    cases hp
    obtain rfl : 1 = C := Except.ok.inj (hC.symm.trans hcount)
    obtain ⟨start, rfl⟩ := List.length_eq_one_iff.1 (Plan.length_startStates hstarts)
    obtain ⟨e, he⟩ := CompiledStep.sweep_of_refuses (h _ hstarts start List.mem_cons_self) g
    have hstep : (s.step start).outcome g = (.error e, g) := by
      rw [step, ht]
      exact he
    simp only [runOpen, if_true]
    split
    · exact Source.close_openStream hopen
    · next sched _ _ _ =>
      have hleft : (s.chain p.rule sched start g).left = g := p.rule.left_of_failure hstep
      have hends : ((runInOrder (s.chain p.rule sched) ([start].zip [g])).2.map ChainEnd.left).headD
          g = g := by
        simp only [List.zip_cons_cons, List.zip_nil_left, runInOrder]
        split <;> exact hleft
      rw [hends]
      exact Source.close_openStream hopen

end Sampler

/-- **Rejected calls leave the stream as it was.**  A call on a stream, the given one or the
    ambient one, with finite counts and at least one fault is refused with a value error that
    does not depend on the sampler, so no sweep is made; and so is a sample in an unknown form.  A
    call without a fault reaches its chains.  A single chain whose start lacks a drawn variable,
    or whose data are in a wrong number, leaves the source as it was.  Several chains, whether
    they finish or not, leave the stream where it is, with a child given out for each of them. -/
theorem rejected_calls_keep_stream {source : Source} {g : Stream}
    (hg : source.generator? = some g) :
    (∀ p : Plan Stream, p.HasFiniteCounts →
      (p.IsFaulty → ∃ e, e.kind = .fault .badValue ∧
        ∀ s : Sampler, s.runChains p source = .refused source e) ∧
      (∀ output, Mode.ofText? output = none ∨ p.IsFaulty → ∃ e, e.kind = .fault .badValue ∧
        ∀ s : Sampler, s.sample p source output = .failed e ∧
          (s.sampleLeaving p source output).2 = source) ∧
      (¬ p.IsFaulty → ∃ C sched, 1 ≤ C ∧
        ∀ s : Sampler, ∃ starts, p.Prepared s.initial source C g starts sched)) ∧
    (∀ (s : Sampler) (c : CompiledStep) (p : Plan Stream), s.transition = .compiled c →
      p.chainCount = .ok 1 →
      (∀ starts, p.startStates s.initial 1 = .ok starts → ∀ u ∈ starts, c.Refuses s.data u) →
      (s.runChains p source).source = source ∧
        ∀ output, (s.sampleLeaving p source output).2 = source) ∧
    ∀ (s : Sampler) (p : Plan Stream) (C : Nat) (starts : List State), p.check = .ok () →
      p.chainCount = .ok C → 2 ≤ C → p.startStates s.initial C = .ok starts →
      ∃ g', (s.runChains p source).source.generator? = some g' ∧ g'.position = g.position ∧
        g'.calls = g.calls ∧ g'.spawned = g.spawned + C ∧
        ∀ output mode, Mode.ofText? output = some mode →
          (s.sampleLeaving p source output).2 = (s.runChains p source).source := by
  have hopen := Source.openStream_of_generator? hg
  refine ⟨fun p hf => ⟨fun h => Sampler.exists_refusal hf h hopen, ?_, fun h => ?_⟩, ?_, ?_⟩
  · intro output h
    cases hmode : Mode.ofText? output with
    | none =>
      refine ⟨.fault .badValue, rfl, fun s => ?_⟩
      rw [Sampler.sample, s.sampleLeaving_of_none p source hmode]
      exact ⟨rfl, rfl⟩
    | some mode =>
      have hfault := h.resolve_left (by rw [hmode]; exact Option.some_ne_none mode)
      obtain ⟨e, he, hrun⟩ := Sampler.exists_refusal hf hfault hopen
      refine ⟨e, he, fun s => ?_⟩
      rw [Sampler.sample, s.sampleLeaving_of_mode p source hmode, hrun]
      exact ⟨rfl, rfl⟩
  · obtain ⟨C, sched, hC, hp⟩ := hf.exists_prepared h hopen
    exact ⟨C, sched, hC, fun s => hp s.initial⟩
  · intro s c p ht hC h
    have hsource : (s.runChains p source).source = source := Sampler.source_of_refuses ht hC h
    refine ⟨hsource, fun output => ?_⟩
    cases hmode : Mode.ofText? output with
    | none => rw [s.sampleLeaving_of_none p source hmode]
    | some mode => rw [s.sampleLeaving_of_mode p source hmode, hsource]
  · intro s p C starts hcheck hC h2 hstarts
    refine ⟨g.skipChildren C, ?_, g.position_skipChildren C, g.calls_skipChildren C,
      g.spawned_skipChildren C, fun output mode hmode => ?_⟩
    · rw [Sampler.source_of_several hcheck hC h2 hopen hstarts]
      exact Source.generator?_close hg _
    · rw [s.sampleLeaving_of_mode p source hmode]

/-! ## A call with several faults -/

/-- Less than no draws of three chains with two starts, and a distance of zero. -/
def tangled : Plan Stream :=
  { Plan.ofRule (.count (.int (-1))) with
    chains := .int 3, thin := .int 0, starts := .each [pairStart, otherStart] }

/-- Two draws of a single chain with nothing to start from. -/
def lostChain : Plan Stream := { Plan.ofRule (.count (.int 2)) with starts := .shared otherStart }

/-- The tape after two numbers were read. -/
def startedTape : Stream := numberTape.afterUniform 2

/-- The call with several faults and the chain that is refused leave the tape as it was, and the
    chains of which the second one fails leave it with two children given out, whatever the first
    one read of its child. -/
theorem startedTape_kept : ∃ c s, alternatingPair.compile.result = .ok c ∧
    c.build pairStart [.float 2.0] = .ok s ∧ tangled.HasFiniteCounts ∧ tangled.IsFaulty ∧
    (∃ e, e.kind = .fault .badValue ∧
      ∀ s : Sampler, s.runChains tangled (.stream startedTape) = .refused (.stream startedTape) e) ∧
    (s.runChains lostChain (.stream startedTape)).source = .stream startedTape ∧
    ∃ g', (s.runChains halfStarted (.stream startedTape)).source.generator? = some g' ∧
      g'.position = .inl 2 ∧ g'.spawned = 2 := by
  obtain ⟨hfaults, hsingle, hseveral⟩ :=
    @rejected_calls_keep_stream (.stream startedTape) startedTape rfl
  obtain ⟨c, s, hc, hs, ht, hdraws, hinitial⟩ : ∃ c s, alternatingPair.compile.result = .ok c ∧
      c.build pairStart [.float 2.0] = .ok s ∧ s.transition = .compiled c ∧
      (∃ n ∈ c.sampled, otherStart.has n.text = false) ∧
      halfStarted.startStates s.initial 2 = .ok [pairStart, otherStart] :=
    ⟨_, _, rfl, rfl, rfl, ⟨_, List.mem_cons_self, rfl⟩, rfl⟩
  have hfinite : tangled.HasFiniteCounts := by
    intro v hv
    cases hv with
    | draws h => cases h; rfl
    | workers h => cases h
    | _ => rfl
  have hfaulty : tangled.IsFaulty := .thin rfl
  have hlost : ∀ starts, lostChain.startStates s.initial 1 = .ok starts →
      ∀ u ∈ starts, c.Refuses s.data u := by
    intro starts hstarts u hu
    cases hstarts
    rw [List.eq_of_mem_replicate hu]
    exact .inr hdraws
  obtain ⟨g', hg', hposition, -, hspawned, -⟩ :=
    hseveral s halfStarted 2 _ halfStarted_inRange.check rfl (by decide) hinitial
  exact ⟨c, s, hc, hs, hfinite, hfaulty, (hfaults tangled hfinite).1 hfaulty,
    (hsingle s c lostChain ht rfl hlost).1, g', hg', hposition, hspawned⟩

end Gibbs
