/-
  What carries information from one sweep into the next.

  A drawn variable is carried if some statement refers to it before any statement draws it;
  the old value of any other variable is never looked at.  During a sweep the frames of two
  runs agree on more and more variables: on the carried ones from the start, and on every
  drawn one from its draw on.

  * `Model.Carries`: the carried variables;
  * `Frame.Coupled`, `Statement.run_coupled`: frames of two runs, and one statement on them;
  * `runAll_coupled`: all statements;
  * `carried_determine`: sweeps and chains from states that agree on the carried variables.
-/
import Gibbs.Proofs.Model.Dataflow
import Gibbs.Proofs.Model.Update

namespace Gibbs

variable {σ : Type} {m : Model}

/-- A drawn variable to which some statement refers that no statement drawing the variable
    comes before. -/
def Model.Carries (m : Model) (n : Name) : Prop :=
  n ∈ m.sampledNames ∧ ∃ done st rest, m.statements = done ++ st :: rest ∧ n ∈ st.names ∧
    ∀ u ∈ done, u.sampled? ≠ some n

/-- States with the same value for every drawn variable. -/
def Model.SameDraws (m : Model) (s t : State) : Prop :=
  ∀ n ∈ m.sampledNames, ∃ v, s.get? n.text = some v ∧ t.get? n.text = some v

/-- States that a sweep cannot tell apart: both have values for all drawn variables, the same
    ones for the carried variables. -/
structure Model.Alike (m : Model) (s t : State) : Prop where
  left : ∀ n ∈ m.sampledNames, s.has n.text = true
  right : ∀ n ∈ m.sampledNames, t.has n.text = true
  carried : ∀ n, m.Carries n → s.get? n.text = t.get? n.text

theorem Model.SameDraws.alike {s t : State} (h : m.SameDraws s t) : m.Alike s t := by
  refine ⟨fun n hn => ?_, fun n hn => ?_, fun n hn => ?_⟩
  · obtain ⟨v, hs, -⟩ := h n hn
    exact State.has_of_get? hs
  · obtain ⟨v, -, ht⟩ := h n hn
    exact State.has_of_get? ht
  · obtain ⟨v, hs, ht⟩ := h n hn.1
    rw [hs, ht]

/-! ## Frames of two runs -/

/-- The frames of two runs after some statements. -/
structure Frame.Coupled (m : Model) (done : List Statement) (f g : Frame) : Prop where
  data : f.data = g.data
  locals : f.locals = g.locals
  carried : ∀ n, m.Carries n → f.state.get? n.text = g.state.get? n.text
  drawn : ∀ st ∈ done, ∀ n, st.sampled? = some n →
    ∃ v, f.state.get? n.text = some v ∧ g.state.get? n.text = some v

namespace Frame.Coupled

variable {done rest : List Statement} {st : Statement} {f g : Frame}

/-- **The names of the next statement** stand for the same values in both runs. -/
theorem valueOf (h : Coupled m done f g) (hsplit : m.statements = done ++ st :: rest) {n : Name}
    (hn : n ∈ st.names) : m.valueOf f n = m.valueOf g n := by
  have hstate : n ∈ m.sampledNames → f.state.get? n.text = g.state.get? n.text := by
    intro hmem
    by_cases hdrawn : ∃ u ∈ done, u.sampled? = some n
    · obtain ⟨u, hu, hname⟩ := hdrawn
      obtain ⟨v, hf, hg⟩ := h.drawn u hu n hname
      rw [hf, hg]
    · simp only [not_exists, not_and] at hdrawn
      exact h.carried n ⟨hmem, done, st, rest, hsplit, hn, hdrawn⟩
  unfold Model.valueOf
  split_ifs with hmem
  · rw [hstate hmem]
  · rw [h.data]
  · rw [h.locals]

theorem sample (h : Coupled m done f g) (n : Name) (d : Distribution) (v : Value) :
    Coupled m (done ++ [.sample n d]) (f.setState n v) (g.setState n v) where
  data := h.data
  locals := h.locals
  carried x hx := by
    show (f.state.set n.text v).get? x.text = (g.state.set n.text v).get? x.text
    by_cases hname : x.text = n.text
    · rw [hname, State.get?_set_self, State.get?_set_self]
    · rw [State.get?_set_of_ne hname, State.get?_set_of_ne hname]; exact h.carried x hx
  drawn u hu x hx := by
    show ∃ w, (f.state.set n.text v).get? x.text = some w ∧
      (g.state.set n.text v).get? x.text = some w
    by_cases hname : x.text = n.text
    · rw [hname, State.get?_set_self, State.get?_set_self]; exact ⟨v, rfl, rfl⟩
    · rw [State.get?_set_of_ne hname, State.get?_set_of_ne hname]
      rcases List.mem_append.1 hu with hu | hu
      · exact h.drawn u hu x hx
      · rw [List.mem_singleton.1 hu] at hx
        cases hx; exact absurd rfl hname

theorem assign (h : Coupled m done f g) (n : Name) (e : Expr) (v : Value) :
    Coupled m (done ++ [.assign n e]) (f.setLocal n v) (g.setLocal n v) where
  data := h.data
  locals := congrArg ((n, v) :: ·) h.locals
  carried := h.carried
  drawn u hu x hx := by
    rcases List.mem_append.1 hu with hu | hu
    · exact h.drawn u hu x hx
    · rw [List.mem_singleton.1 hu] at hx; cases hx

end Frame.Coupled

/-! ## Statements in two runs -/

/-- **One statement** in two runs. -/
theorem Statement.run_coupled (draw : Drawing σ) {done rest : List Statement} {st : Statement}
    {f g : Frame} (hsplit : m.statements = done ++ st :: rest) (h : f.Coupled m done g) :
    (st.run m draw f).Coupled (Frame.Coupled m (done ++ [st])) (st.run m draw g) := by
  refine run_coupled_of_result (result_congr draw fun n hn => h.valueOf hsplit hn) fun v => ?_
  cases st with
  | sample n d => exact h.sample n d v
  | assign n e => exact h.assign n e v

theorem runAll_coupled (draw : Drawing σ) : ∀ {rest done : List Statement} {f g : Frame},
    m.statements = done ++ rest → Frame.Coupled m done f g →
    (Statement.runAll m draw f rest).Coupled (Frame.Coupled m m.statements)
      (Statement.runAll m draw g rest)
  | [], done, f, g, hsplit, h => by
    rw [List.append_nil] at hsplit
    rw [hsplit]; exact .pure h
  | st :: rest, done, f, g, hsplit, h => by
    refine (Statement.run_coupled draw hsplit h).bind fun f' g' h' => ?_
    exact runAll_coupled draw (by rw [List.append_assoc]; exact hsplit) h'

/-! ## Sweeps and chains -/

/-- **Sweeps from states that cannot be told apart** have the same draws. -/
theorem run_coupled {c : CompiledStep} (hc : m.Accepted c) (draw : Drawing σ) (data : List Value)
    {s t : State} (h : m.Alike s t) :
    (c.run draw s data).Coupled m.SameDraws (c.run draw t data) := by
  by_cases hd : data.length = m.data.length
  · rw [run_accepted hc h.left hd, run_accepted hc h.right hd]
    have hstart : Frame.Coupled m [] ⟨s, [], data⟩ ⟨t, [], data⟩ :=
      ⟨rfl, rfl, h.carried, fun st hst => absurd hst List.not_mem_nil⟩
    refine (runAll_coupled draw rfl hstart).bind fun f g hfg => ?_
    refine .pure fun n hn => ?_
    obtain ⟨st, hst, hname⟩ := mem_sampledNames.1 hn
    exact hfg.drawn st hst n hname
  · intro r
    rw [← hc.data] at hd
    rw [CompiledStep.run_of_length_ne hd, CompiledStep.run_of_length_ne hd]
    exact .error _ r

/-- **Only carried variables matter.**  From two states that have values for all drawn
    variables, the same ones for the carried variables, the sweeps of an accepted model fail
    with the same error or leave the same value for every drawn variable, and they use up the
    same randomness; and chains asked for some draws keep the same values of all drawn
    variables, whatever the schedule. -/
theorem carried_determine {c : CompiledStep} (hc : m.compile.result = .ok c) {s t : State}
    (hs : ∀ n ∈ m.sampledNames, s.has n.text = true)
    (ht : ∀ n ∈ m.sampledNames, t.has n.text = true)
    (hst : ∀ n, m.Carries n → s.get? n.text = t.get? n.text) (draw : Drawing σ)
    (data : List Value) :
    (c.run draw s data).Coupled m.SameDraws (c.run draw t data) ∧
    ∀ (n : Value) (sched : Schedule) (r : σ),
      ((Rule.count n).run (c.run draw · data) sched s r).Coupled m.SameDraws
        ((Rule.count n).run (c.run draw · data) sched t r) := by
  have hstep : ∀ s t, m.Alike s t → (c.run draw s data).Coupled m.SameDraws (c.run draw t data) :=
    fun _ _ h => run_coupled (Model.accepted hc) draw data h
  refine ⟨hstep s t ⟨hs, ht, hst⟩, fun n sched r => ?_⟩
  exact Rule.run_count_coupled hstep (fun _ _ h => h.alike) n sched ⟨hs, ht, hst⟩ r

/-! ## A variable that is not carried -/

/-- A model that draws `y` around `x`, and then `x` around `y`. -/
def alternating : Model :=
  let x : Name := ⟨"x", isIdentifier_x⟩
  let y : Name := ⟨"y", isIdentifier_y⟩
  let z : Name := ⟨"z", isIdentifier_z⟩
  ⟨x, [], [.sample y ⟨.normal, [("mu", .var x), ("sigma", .literal (.int 1))]⟩,
    .assign z (.var y),
    .sample x ⟨.normal, [("mu", .var z), ("sigma", .literal (.int 1))]⟩]⟩

/-- Only `x` is carried. -/
theorem alternating_carries {n : Name} (h : alternating.Carries n) : n.text = "x" := by
  obtain ⟨hn, done, st, rest, hsplit, hmem, hdone⟩ := h
  cases done with
  | nil =>
    obtain ⟨rfl, -⟩ := List.cons.inj hsplit
    obtain rfl := List.mem_singleton.1 (hmem : n ∈ [⟨"x", by decide⟩])
    rfl
  | cons u done =>
    obtain ⟨rfl, -⟩ := List.cons.inj hsplit
    have htexts : alternating.sampledNames.map Name.text = ["y", "x"] := by decide
    have hy : n.text ≠ "y" := by
      intro hy
      exact hdone _ List.mem_cons_self (congrArg some (Name.ext_text hy.symm))
    have htext : n.text ∈ ["y", "x"] := htexts ▸ List.mem_map_of_mem hn
    simpa [hy] using htext

/-- A state with values for both variables. -/
def alternatingStart : State := ⟨[("x", .int 3), ("y", .int 0)], by decide⟩

/-- A state with the same `x`, another `y`, another order and a name of its own. -/
def alternatingOther : State := ⟨[("w", .int 1), ("y", .int 7), ("x", .int 3)], by decide⟩

theorem alternating_determined : ∃ c, alternating.compile.result = .ok c ∧
    (∀ n ∈ alternating.sampledNames, alternatingStart.has n.text = true) ∧
    (∀ n ∈ alternating.sampledNames, alternatingOther.has n.text = true) ∧
    (∀ n, alternating.Carries n →
      alternatingStart.get? n.text = alternatingOther.get? n.text) ∧
    (c.run counting alternatingStart []).Coupled alternating.SameDraws
      (c.run counting alternatingOther []) ∧
    ((Rule.count (.int 2)).run (c.run counting · []) (.ofInts 1 2) alternatingStart 5).Coupled
      alternating.SameDraws
      ((Rule.count (.int 2)).run (c.run counting · []) (.ofInts 1 2) alternatingOther 5) := by
  obtain ⟨c, hc⟩ : ∃ c, alternating.compile.result = .ok c := ⟨_, rfl⟩
  have hs : ∀ n ∈ alternating.sampledNames, alternatingStart.has n.text = true := by decide
  have ht : ∀ n ∈ alternating.sampledNames, alternatingOther.has n.text = true := by decide
  have hst : ∀ n, alternating.Carries n →
      alternatingStart.get? n.text = alternatingOther.get? n.text := by
    intro n hn
    rw [alternating_carries hn]; rfl
  obtain ⟨hsweep, hchain⟩ := carried_determine hc hs ht hst counting []
  exact ⟨c, hc, hs, ht, hst, hsweep, hchain (.int 2) (.ofInts 1 2) 5⟩

end Gibbs
