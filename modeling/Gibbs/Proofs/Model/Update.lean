/-
  A statement as a value and an update.

  What a statement does to a frame is to compute or to draw one value and to put it in its
  place.  Runs of two statements that have the same value, drawn from the same randomness, go
  on side by side.

  * `Statement.result`, `Statement.update`, `run_eq`: the two parts of a statement;
  * `result_congr`: the value depends on what the names of the statement stand for;
  * `run_coupled_of_result`: two statements with the same value.
-/
import Gibbs.Proofs.Chain.Coupled
import Gibbs.Proofs.Expr.Lookup
import Gibbs.Proofs.Model.ByName

namespace Gibbs.Statement

variable {σ : Type} {m m' : Model} {st : Statement} {f f' : Frame}

/-- The value of a statement. -/
def result (m : Model) (draw : Drawing σ) (f : Frame) : Statement → Sampling σ Value
  | sample _ d => do
    let values ← Sampling.ofExcept (d.eval (m.valueOf f))
    draw d.family values
  | assign _ e => Sampling.ofExcept (e.eval (m.valueOf f))

/-- The frame with the value of a statement. -/
def update : Statement → Frame → Value → Frame
  | sample n _, f, v => f.setState n v
  | assign n _, f, v => f.setLocal n v

/-- **A statement** computes or draws its value and puts it in its place. -/
theorem run_eq (draw : Drawing σ) :
    st.run m draw f = st.result m draw f >>= fun v => pure (st.update f v) := by
  cases st with
  | sample n d => rw [run, result, bind_assoc]; rfl
  | assign n e => rfl

theorem result_congr (draw : Drawing σ) (h : ∀ n ∈ st.names, m.valueOf f n = m'.valueOf f' n) :
    st.result m draw f = st.result m' draw f' := by
  cases st with
  | sample n d =>
    have heval : d.eval (m.valueOf f) = d.eval (m'.valueOf f') := Distribution.eval_congr h
    simp only [result, heval]
  | assign n e =>
    have heval : e.eval (m.valueOf f) = e.eval (m'.valueOf f') := Expr.eval_congr h
    simp only [result, heval]

/-- A statement leaves all names as they are but the one on its left. -/
theorem valueOf_update (m : Model) {n : Name} (h : n ≠ st.target) (f : Frame) (v : Value) :
    m.valueOf (st.update f v) n = m.valueOf f n := by
  cases st with
  | sample x d =>
    have ht : n.text ≠ x.text := fun heq => h (Name.ext_text heq)
    simp only [Model.valueOf, update, Frame.setState, State.get?_set_of_ne ht]
  | assign x e =>
    have hx : (n == x) = false := beq_false_of_ne h
    simp only [Model.valueOf, update, Frame.setLocal, List.lookup_cons, hx]

/-- **Two statements with the same value**, one after the other statement of each run. -/
theorem run_coupled_of_result {st' : Statement} {draw : Drawing σ} {R : Frame → Frame → Prop}
    (h : st.result m draw f = st'.result m' draw f')
    (hR : ∀ v, R (st.update f v) (st'.update f' v)) :
    (st.run m draw f).Coupled R (st'.run m' draw f') := by
  rw [run_eq, run_eq, h]
  refine (Sampling.Coupled.refl _).bind ?_
  rintro v _ rfl
  exact .pure (hR v)

end Gibbs.Statement
