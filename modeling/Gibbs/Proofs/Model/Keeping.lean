/-
  What sweeps keep.

  A sweep only gives new values to drawn variables that the state has already.  So the names
  of a state and their order stay the same, and so does the value of every other name.

  * `Model.Keeps`: the states that sweeps may lead to;
  * `Statement.run_keeps`, `runAll_keeps`: one statement, and all of them;
  * `CompiledStep.run_keeps`: one sweep.
-/
import Gibbs.Proofs.Distribution.Draw
import Gibbs.Proofs.Model.Dataflow

namespace Gibbs

variable {σ : Type} {m : Model} {start : State}

/-- States with the names of another one, in its order, and its values of all names that are
    not drawn; all values are numbers and arrays. -/
structure Model.Keeps (m : Model) (start s : State) : Prop where
  keys : s.keys = start.keys
  others : ∀ name, name ∉ m.sampledNames.map Name.text → s.get? name = start.get? name
  numeric : ∀ name v, s.get? name = some v → v.isNumeric = true

/-- Drawings whose results are numbers and arrays. -/
def Drawing.IsNumeric (draw : Drawing σ) : Prop :=
  ∀ family values, (draw family values).Gives fun v => v.isNumeric = true

namespace Model.Keeps

/-- **A drawn variable** with a new value. -/
theorem set {s : State} (h : m.Keeps start s) {n : Name} (hn : n ∈ m.sampledNames)
    (hstart : start.has n.text = true) {v : Value} (hv : v.isNumeric = true) :
    m.Keeps start (s.set n.text v) where
  keys := by
    have hmem : n.text ∈ s.keys := h.keys ▸ State.has_iff.1 hstart
    rw [State.keys_set, if_pos hmem, h.keys]
  others name hname := by
    have hne : name ≠ n.text := by
      rintro rfl
      exact hname (List.mem_map_of_mem hn)
    rw [State.get?_set_of_ne hne, h.others name hname]
  numeric name w hw := by
    by_cases hne : name = n.text
    · rw [hne, State.get?_set_self] at hw
      cases hw; exact hv
    · rw [State.get?_set_of_ne hne] at hw
      exact h.numeric name w hw

end Model.Keeps

open Sampling

/-- **One statement** keeps the names. -/
theorem Statement.run_keeps {draw : Drawing σ} (hdraw : draw.IsNumeric)
    (hstart : ∀ n ∈ m.sampledNames, start.has n.text = true) {st : Statement}
    (hst : st ∈ m.statements) {f : Frame} (hf : m.Keeps start f.state) :
    (st.run m draw f).Gives fun g => m.Keeps start g.state := by
  cases st with
  | sample n d =>
    have hn : n ∈ m.sampledNames := mem_sampledNames.2 ⟨_, hst, rfl⟩
    refine (Gives.trivial _).bind fun values _ => ?_
    exact (hdraw d.family values).bind fun v hv => .pure (hf.set hn (hstart n hn) hv)
  | assign n e => exact (Gives.trivial _).bind fun v _ => .pure hf

theorem runAll_keeps {draw : Drawing σ} (hdraw : draw.IsNumeric)
    (hstart : ∀ n ∈ m.sampledNames, start.has n.text = true) :
    ∀ {sts : List Statement} {f : Frame}, (∀ st ∈ sts, st ∈ m.statements) →
    m.Keeps start f.state →
    (Statement.runAll m draw f sts).Gives fun g => m.Keeps start g.state
  | [], f, _, hf => .pure hf
  | st :: sts, f, hsts, hf => by
    refine (Statement.run_keeps hdraw hstart (hsts st List.mem_cons_self) hf).bind fun g hg => ?_
    exact runAll_keeps hdraw hstart (fun t ht => hsts t (List.mem_cons_of_mem st ht)) hg

/-- **One sweep** keeps the names and all values that are not drawn. -/
theorem CompiledStep.run_keeps {c : CompiledStep} (hc : m.Accepted c) {draw : Drawing σ}
    (hdraw : draw.IsNumeric) (hstart : ∀ n ∈ m.sampledNames, start.has n.text = true) {s : State}
    (hs : m.Keeps start s) (data : List Value) : (c.run draw s data).Gives (m.Keeps start) := by
  by_cases hd : data.length = m.data.length
  · have hhas : ∀ n ∈ m.sampledNames, s.has n.text = true := by
      intro n hn
      rw [State.has_iff, hs.keys, ← State.has_iff]
      exact hstart n hn
    rw [run_accepted hc hhas hd]
    exact (runAll_keeps hdraw hstart (fun _ hst => hst) hs).bind fun f hf => .pure hf
  · intro r t r' ht
    rw [← hc.data] at hd
    rw [run_of_length_ne hd] at ht
    cases ht

/-- Draws of a stream are numbers and arrays. -/
theorem isNumeric_draw : @Drawing.IsNumeric Stream Family.draw := Family.gives_numeric

end Gibbs
