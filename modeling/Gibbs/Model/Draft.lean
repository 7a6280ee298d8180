/-
  Drafts: models under construction, which remember the step they were last compiled to.

  Compiling a draft twice gives the same step; adding a statement forgets it.

  * `Draft.compile`: the remembered step, or a new one with a new number;
  * `compile_compile`: compiling again changes nothing and gives the same step.
-/
import Gibbs.Model.Compile

namespace Gibbs

/-- A step with the number of the compilation that made it. -/
structure NumberedStep where
  number : Nat
  step : CompiledStep

/-- A model under construction. -/
structure Draft where
  model : Model
  compiled? : Option NumberedStep
  /-- the number of steps compiled so far -/
  compilations : Nat

namespace Draft

/-- A model that was not compiled yet. -/
def ofModel (m : Model) : Draft := ⟨m, none, 0⟩

/-- The draft with one more statement. -/
def add (d : Draft) (s : Statement) : Draft :=
  { d with model := d.model.add s, compiled? := none }

/-- The step of a draft, and the draft that remembers it. -/
def compile (d : Draft) : Except Error NumberedStep × Draft :=
  match d.compiled? with
  | some c => (.ok c, d)
  | none =>
    match d.model.compile.result with
    | .error e => (.error e, d)
    | .ok c =>
      let n : NumberedStep := ⟨d.compilations, c⟩
      (.ok n, { d with compiled? := some n, compilations := d.compilations + 1 })

/-- **Compiling again** gives the same outcome and changes nothing. -/
theorem compile_compile (d : Draft) : d.compile.2.compile = d.compile := by
  obtain ⟨m, compiled?, n⟩ := d
  cases compiled? with
  | some c => rfl
  | none => cases h : m.compile.result <;> simp [compile, h]

end Draft

end Gibbs
