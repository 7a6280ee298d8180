/-
  Samples: what a run keeps, and how packaging it can fail.

  A run of an accepted model of which no sweep fails keeps the names of its start and the
  values of all names that are not drawn.  So packaging its draws can only fail for what was
  drawn: a drawn variable whose values differ in shape, or, in a table, in letter.

  * `Model.Records`: the chains of such a run;
  * `Model.Records.complete`: they are a complete record;
  * `exists_records`: a run of which no sweep fails;
  * `sample_of_mode`, `sample_tensor`, `sample_tabular`, `error_of_sample`: samples of a run that
    finishes;
  * `sample_keeps_variables`: the draws, the arrays and the table of a run.
-/
import Gibbs.Chain.Sample
import Gibbs.Proofs.Assembly.Complete
import Gibbs.Proofs.Chain.Invariant
import Gibbs.Proofs.Model.Keeping

namespace Gibbs

open Assembly

/-! ## The chains of a run -/

/-- Chains of `N` draws each that keep the names of a state, and its values of all names that
    are not drawn. -/
structure Model.Records (m : Model) (start : State) (C N : Nat) (chains : List Draws) : Prop where
  count : chains.length = C
  length : ∀ draws ∈ chains, draws.length = N
  keeps : ∀ s ∈ chains.flatten, m.Keeps start s

namespace Model.Records

variable {m : Model} {start : State} {C N : Nat} {chains : List Draws}

theorem complete (h : m.Records start C N chains) (hC : 1 ≤ C) (hN : 1 ≤ N) :
    Complete chains start.keys N where
  ne_nil := by
    rintro rfl
    have hlen := h.count
    simp at hlen; omega
  draws := by omega
  length := h.length
  keys s hs := (h.keeps s hs).keys
  numeric s hs := (h.keeps s hs).numeric

/-- **A name that is not drawn** has one value in all draws. -/
theorem eq_of_not_drawn (h : m.Records start C N chains) {name : String}
    (hn : name ∉ m.sampledNames.map Name.text) {v w : Value} (hv : v ∈ recorded chains name)
    (hw : w ∈ recorded chains name) : v = w := by
  obtain ⟨s, hs, hv⟩ := mem_recorded_iff.1 hv
  obtain ⟨t, ht, hw⟩ := mem_recorded_iff.1 hw
  rw [(h.keeps s hs).others name hn] at hv
  rw [(h.keeps t ht).others name hn] at hw
  exact Option.some.inj (hv.symm.trans hw)

/-- What holds of names with one value holds of all names if it holds of the drawn ones. -/
theorem forall_keys_iff (hstart : ∀ n ∈ m.sampledNames, start.has n.text = true)
    {P : String → Prop} (hP : ∀ name, name ∉ m.sampledNames.map Name.text → P name) :
    (∀ name ∈ start.keys, P name) ↔ ∀ n ∈ m.sampledNames, P n.text := by
  constructor
  · exact fun h n hn => h n.text (State.has_iff.1 (hstart n hn))
  · intro h name _
    by_cases hn : name ∈ m.sampledNames.map Name.text
    · obtain ⟨n, hmem, rfl⟩ := List.mem_map.1 hn
      exact h n hmem
    · exact hP name hn

/-- **The arrays of a run:** they exist exactly if each drawn variable has values of one
    shape. -/
theorem tensors_cases (h : m.Records start C N chains) (hC : 1 ≤ C) (hN : 1 ≤ N)
    (hstart : ∀ n ∈ m.sampledNames, start.has n.text = true) :
    ((∀ n ∈ m.sampledNames, SameShape chains n.text) ∧ ∃ ts, tensors chains = .ok ts ∧
      ts.map Prod.fst = start.keys ∧ ∀ q ∈ ts, ∃ shape, q.2.shape = shape ++ [N, C] ∧
        ∀ v ∈ recorded chains q.1, v.asArray.shape = shape) ∨
    ((¬ ∀ n ∈ m.sampledNames, SameShape chains n.text) ∧
      ∃ e, tensors chains = .error e ∧ e.isDifference = true) := by
  have hcases := (h.complete hC hN).tensors_cases
  have hshape : ∀ name, name ∉ m.sampledNames.map Name.text → SameShape chains name :=
    fun name hn v hv w hw => by rw [h.eq_of_not_drawn hn hv hw]
  rwa [h.count, forall_keys_iff hstart hshape] at hcases

/-- **The table of a run:** it exists exactly if each drawn variable has values of one shape and
    one letter. -/
theorem table_cases (h : m.Records start C N chains) (hC : 1 ≤ C) (hN : 1 ≤ N)
    (hstart : ∀ n ∈ m.sampledNames, start.has n.text = true) :
    ((∀ n ∈ m.sampledNames, SameShape chains n.text ∧ SameLetter chains n.text) ∧
      ∃ t, table chains = .ok t) ∨
    ((¬ ∀ n ∈ m.sampledNames, SameShape chains n.text ∧ SameLetter chains n.text) ∧
      ∃ e, table chains = .error e ∧ e.isDifference = true) := by
  have hcases := (h.complete hC hN).table_cases
  have hsame : ∀ name, name ∉ m.sampledNames.map Name.text →
      SameShape chains name ∧ SameLetter chains name :=
    fun name hn => ⟨fun v hv w hw => by rw [h.eq_of_not_drawn hn hv hw],
      fun v hv w hw => by rw [h.eq_of_not_drawn hn hv hw]⟩
  rwa [forall_keys_iff hstart hsame] at hcases

end Model.Records

/-- The transition of a sampler that was built from a step. -/
theorem Sampler.step_of_build {c : CompiledStep} {initial : State} {data : List Value}
    {s : Sampler} (hs : c.build initial data = .ok s) :
    s.step = fun u => c.run Family.draw u data := by
  unfold CompiledStep.build at hs
  split at hs
  · cases hs; rfl
  · cases hs

/-- **A run of which no sweep fails** keeps the names of its start. -/
theorem exists_records {m : Model} {c : CompiledStep} (hc : m.Accepted c) {initial : State}
    {data : List Value} {s : Sampler} (hs : c.build initial data = .ok s) {start : State}
    (hstart : ∀ n ∈ m.sampledNames, start.has n.text = true)
    (hnumeric : ∀ name v, start.get? name = some v → v.isNumeric = true)
    {p : Plan Stream} {n : Value} {N C d t : Nat} (hp : p.InRange n N C d t) (hN : 1 ≤ N)
    (hshared : p.startStates s.initial C = .ok (List.replicate C start)) {source : Source}
    {g : Stream} (hg : source.openStream = .ok g)
    (hsweeps : ∀ r ∈ chainStreams g C, ∃ u r',
      Chain.after s.step start r (d + (N - 1) * t + 1) = (.ok u, r')) :
    ∃ chains, (s.runChains p source).outcome = .finished chains ∧
      m.Records start C N chains := by
  rw [← Schedule.sweepsFor_ofInts hp.one_le_thin] at hsweeps
  have hkeeps : ∀ u, m.Keeps start u → (s.step u).Gives (m.Keeps start) := by
    intro u hu
    rw [Sampler.step_of_build hs]
    exact CompiledStep.run_keeps hc isNumeric_draw hstart hu data
  refine ⟨_, Sampler.outcome_of_after (hp.prepared hg hshared) hp.rule hp.draws hN hsweeps, ?_⟩
  refine ⟨?_, List.forall_mem_map.2 fun r hr => ?_, fun u hu => ?_⟩
  · rw [List.length_map, length_chainStreams]
  · obtain ⟨u, r', hu⟩ := hsweeps r hr
    rw [Chain.length_recorded hu, Schedule.keptCount_sweepsFor hN]
  · obtain ⟨draws, hdraws, hu⟩ := List.mem_flatten.1 hu
    obtain ⟨r, -, rfl⟩ := List.mem_map.1 hdraws
    exact Chain.recorded_invariant hkeeps ⟨rfl, fun _ _ => rfl, hnumeric⟩ u hu

/-! ## Samples -/

section Samples

variable {s : Sampler} {p : Plan Stream} {source : Source} {chains : List Draws}

/-- **A sample after its run** packages the draws. -/
theorem sample_of_mode (h : (s.runChains p source).outcome = .finished chains) {output : String}
    {mode : Mode} (hmode : Mode.ofText? output = some mode) :
    s.sample p source output = .ofExcept (assemble chains mode) := by
  rw [Sampler.sample, s.sampleLeaving_of_mode p source hmode, h]; rfl

theorem sample_tensor (h : (s.runChains p source).outcome = .finished chains) :
    s.sample p source "tensor" = .ofExcept ((tensors chains).map .tensors) := by
  rw [sample_of_mode h rfl, assemble]
  cases tensors chains <;> rfl

theorem sample_tabular (h : (s.runChains p source).outcome = .finished chains) :
    s.sample p source "tabular" = .ofExcept ((table chains).map .table) := by
  rw [sample_of_mode h rfl, assemble]
  cases table chains <;> rfl

/-- **A sample that fails after its run** asks for a form that does not exist, or fails as the
    packaging of the draws does. -/
theorem error_of_sample (h : (s.runChains p source).outcome = .finished chains) {output : String}
    {e : Error} (hfails : s.sample p source output = .failed e) :
    e = .fault .badValue ∨ tensors chains = .error e ∨ table chains = .error e := by
  cases hmode : Mode.ofText? output with
  | none =>
    rw [Sampler.sample, s.sampleLeaving_of_none p source hmode] at hfails
    cases hfails; exact .inl rfl
  | some mode =>
    rw [sample_of_mode h hmode] at hfails
    cases mode with
    | tensor =>
      cases ht : tensors chains with
      | ok ts => rw [assemble, ht] at hfails; cases hfails
      | error e' => rw [assemble, ht] at hfails; cases hfails; exact .inr (.inl rfl)
    | tabular =>
      cases ht : table chains with
      | ok t => rw [assemble, ht] at hfails; cases hfails
      | error e' => rw [assemble, ht] at hfails; cases hfails; exact .inr (.inr rfl)
    | states => cases hfails

end Samples

/-- A packaging that is decided by some property fails exactly without it. -/
theorem failed_iff {α β : Type} {x : Except Error α} {f : α → β} {A : Prop}
    (h : (A ∧ ∃ a, x = .ok a) ∨ (¬ A ∧ ∃ e, x = .error e ∧ e.isDifference = true)) :
    (∃ e, Outcome.ofExcept (x.map f) = .failed e ∧ e.isAssembly = true) ↔ ¬ A := by
  rcases h with ⟨hA, a, rfl⟩ | ⟨hA, e, rfl, hdiff⟩
  · exact iff_of_false (fun ⟨_, he, _⟩ => by cases he) (not_not_intro hA)
  · exact iff_of_true ⟨e, rfl, Error.isAssembly_of_isDifference hdiff⟩ hA

/-- **Sampling keeps variables, and only draws can keep it from being packaged.**  Let the
    chains of an accepted model start from one state that has values for all drawn variables,
    all of them numbers and arrays, and let no sweep fail.  Then every recorded state has the
    names of the start, in its order, and the start's value of every name that is not drawn.
    The draws can be stacked unless the values of a drawn variable differ in shape, and then
    each name of the start has an array; they can be tabulated unless the values of a drawn
    variable differ in shape or letter.  No variable is ever missing, and no chain has another
    number of draws. -/
theorem sample_keeps_variables {m : Model} {c : CompiledStep} (hc : m.compile.result = .ok c)
    {initial : State} {data : List Value} {s : Sampler} (hs : c.build initial data = .ok s)
    {start : State} (hstart : ∀ n ∈ m.sampledNames, start.has n.text = true)
    (hnumeric : ∀ name v, start.get? name = some v → v.isNumeric = true)
    {p : Plan Stream} {n : Value} {N C d t : Nat} (hp : p.InRange n N C d t) (hN : 1 ≤ N)
    (hshared : p.startStates s.initial C = .ok (List.replicate C start)) {source : Source}
    {g : Stream} (hg : source.openStream = .ok g)
    (hsweeps : ∀ r ∈ chainStreams g C, ∃ u r',
      Chain.after s.step start r (d + (N - 1) * t + 1) = (.ok u, r')) :
    ∃ chains, (s.runChains p source).outcome = .finished chains ∧ m.Records start C N chains ∧
      ((∃ e, s.sample p source "tensor" = .failed e ∧ e.isAssembly = true) ↔
        ∃ n ∈ m.sampledNames, ¬ SameShape chains n.text) ∧
      ((∀ n ∈ m.sampledNames, SameShape chains n.text) →
        ∃ ts, s.sample p source "tensor" = .finished (.tensors ts) ∧
          ts.map Prod.fst = start.keys ∧ ∀ q ∈ ts, ∃ shape, q.2.shape = shape ++ [N, C] ∧
            ∀ v ∈ recorded chains q.1, v.asArray.shape = shape) ∧
      ((∃ e, s.sample p source "tabular" = .failed e ∧ e.isAssembly = true) ↔
        ∃ n ∈ m.sampledNames, ¬ (SameShape chains n.text ∧ SameLetter chains n.text)) ∧
      ((∀ n ∈ m.sampledNames, SameShape chains n.text ∧ SameLetter chains n.text) →
        ∃ t, s.sample p source "tabular" = .finished (.table t)) ∧
      ∀ output e, s.sample p source output = .failed e →
        (∀ name, e ≠ .variableMissing name) ∧ ∀ lengths, e ≠ .unequalLengths lengths := by
  obtain ⟨chains, hrun, hrecords⟩ :=
    exists_records (Model.accepted hc) hs hstart hnumeric hp hN hshared hg hsweeps
  have htensors := hrecords.tensors_cases hp.one_le_chains hN hstart
  have htable := hrecords.table_cases hp.one_le_chains hN hstart
  refine ⟨chains, hrun, hrecords, ?_, fun hshape => ?_, ?_, fun hsame => ?_, fun output e he => ?_⟩
  · rw [sample_tensor hrun, failed_iff (htensors.imp_left fun h => ⟨h.1, h.2.imp fun _ ht => ht.1⟩)]
    simp only [not_forall, exists_prop]
  · rcases htensors with ⟨-, ts, hts, hkeys, harrays⟩ | ⟨hdiffer, -⟩
    · exact ⟨ts, by rw [sample_tensor hrun, hts]; rfl, hkeys, harrays⟩
    · exact absurd hshape hdiffer
  · rw [sample_tabular hrun, failed_iff htable]
    simp only [not_forall, exists_prop]
  · rcases htable with ⟨-, t, ht⟩ | ⟨hdiffer, -⟩
    · exact ⟨t, by rw [sample_tabular hrun, ht]; rfl⟩
    · exact absurd hsame hdiffer
  · have hdiff : e = .fault .badValue ∨ e.isDifference = true := by
      rcases error_of_sample hrun he with rfl | he | he
      · exact .inl rfl
      · rcases htensors with ⟨-, ts, hts, -⟩ | ⟨-, e', he', hdiff⟩
        · cases hts.symm.trans he
        · cases he'.symm.trans he; exact .inr hdiff
      · rcases htable with ⟨-, t, ht⟩ | ⟨-, e', he', hdiff⟩
        · cases ht.symm.trans he
        · cases he'.symm.trans he; exact .inr hdiff
    constructor
    · rintro _ rfl
      rcases hdiff with hdiff | hdiff <;> cases hdiff
    · rintro _ rfl
      rcases hdiff with hdiff | hdiff <;> cases hdiff

/-! ## Draws around a number -/

/-- A model that draws `x` around its data argument. -/
def around : Model :=
  let x : Name := ⟨"x", isIdentifier_x⟩
  let w : Name := ⟨"w", by decide⟩
  ⟨x, [w], [.sample x ⟨.normal, [("mu", .var w), ("sigma", .literal (.float 1.0))]⟩]⟩

/-- A state with a single number for `x`, and a name that is not drawn. -/
def aroundStart : State := ⟨[("k", .int 7), ("x", .float 0.5)], by decide⟩

/-- Two chains of two draws, with one dropped sweep and a distance of two. -/
def twoByTwo : Plan Stream where
  rule := .count (.int 2)
  chains := .int 2
  thin := .int 2
  discard := .int 1
  workers? := none
  parallel := false
  starts := .initial

theorem twoByTwo_inRange : twoByTwo.InRange (.int 2) 2 2 1 2 where
  rule := rfl
  draws := Value.isInteger_int 2
  chains := Value.isInteger_int 2
  one_le_chains := by decide
  discard := Value.isInteger_int 1
  thin := Value.isInteger_int 2
  one_le_thin := by decide
  workers := nofun

/-- The state after a sweep that draws `t`. -/
def aroundEnd (t : Float) : State := ⟨[("k", .int 7), ("x", .double t)], by simp⟩

/-- The second and the fourth number of each child, around two. -/
theorem around_sampled : ∃ c s chains, around.compile.result = .ok c ∧
    c.build aroundStart [.float 2.0] = .ok s ∧ twoByTwo.InRange (.int 2) 2 2 1 2 ∧
    twoByTwo.startStates s.initial 2 = .ok (List.replicate 2 aroundStart) ∧
    (s.runChains twoByTwo (.stream numberTape)).outcome = .finished chains ∧
    chains = [[aroundEnd 4.5, aroundEnd 5.0], [aroundEnd 6.5, aroundEnd 7.0]] ∧
    around.Records aroundStart 2 2 chains ∧
    ∃ ts, s.sample twoByTwo (.stream numberTape) "tensor" = .finished (.tensors ts) ∧
      ts.map Prod.fst = ["k", "x"] ∧ ∀ t, ("x", t) ∈ ts → t.shape = [2, 2] := by
  obtain ⟨c, hc, s, hs, hstarts, hrun, hsweeps⟩ : ∃ c, around.compile.result = .ok c ∧
      ∃ s, c.build aroundStart [.float 2.0] = .ok s ∧
      twoByTwo.startStates s.initial 2 = .ok (List.replicate 2 aroundStart) ∧
      (s.runChains twoByTwo (.stream numberTape)).outcome
        = .finished [[aroundEnd 4.5, aroundEnd 5.0], [aroundEnd 6.5, aroundEnd 7.0]] ∧
      ∀ r ∈ chainStreams numberTape 2, ∃ u r',
        Chain.after s.step aroundStart r (1 + (2 - 1) * 2 + 1) = (.ok u, r') := by
    refine ⟨_, rfl, _, rfl, rfl, rfl, ?_⟩
    change ∀ r ∈ [numberTape.child 0, numberTape.child 1], _
    simp only [List.forall_mem_cons]
    exact ⟨⟨_, _, rfl⟩, ⟨_, _, rfl⟩, fun r hr => absurd hr List.not_mem_nil⟩
  have hnumeric : ∀ name v, aroundStart.get? name = some v → v.isNumeric = true := by
    intro name v hv
    have hall : ∀ e ∈ aroundStart.entries, e.2.isNumeric = true := by decide
    exact hall (name, v) (State.mem_of_get? hv)
  have hopen : (Source.stream numberTape).openStream = .ok numberTape := rfl
  obtain ⟨chains, hchains, hrecords, -, htensor, -⟩ := sample_keeps_variables hc hs (by decide)
    hnumeric twoByTwo_inRange (by decide) hstarts hopen hsweeps
  obtain rfl := Outcome.finished.inj (hrun.symm.trans hchains)
  obtain ⟨ts, hts, hkeys, harrays⟩ := htensor (by decide)
  refine ⟨c, s, _, hc, hs, twoByTwo_inRange, hstarts, hrun, rfl, hrecords, ts, hts, hkeys, ?_⟩
  intro t ht
  obtain ⟨shape, hshape, hall⟩ := harrays ("x", t) ht
  have hscalar : (Value.double 4.5).asArray.shape = shape := hall (.double 4.5) List.mem_cons_self
  rw [hshape, ← hscalar]; rfl

end Gibbs
