/-
  Compiled steps: one sweep of a model as a function from states to states.

  A sweep first compares the number of data arguments, then looks for values of all drawn
  variables, and only then carries out its statements on a copy of the state.

  * `Model.compile`: the step of a model whose names are in order, with a note on what was
    compiled;
  * `CompiledStep.run`: one sweep; a sweep that is refused uses up nothing.
-/
import Gibbs.Model.Code
import Gibbs.Model.Source

namespace Gibbs

/-- A compiled sweep. -/
structure CompiledStep where
  name : Name
  data : List Name
  sampled : List Name
  scopes : List (Name × Scope)
  instructions : List Instruction
  source : String

/-- The outcome of compiling: notes on what was done, and the step. -/
structure Compilation where
  notes : List String
  result : Except Error CompiledStep

namespace Model

/-- The instructions of a model whose names are in order. -/
def instructions (m : Model) : Except Error (List Instruction) := do
  m.check
  m.statements.mapM fun s => s.compile m.place?

/-- The note on a compiled model. -/
def compiledNote (m : Model) : String :=
  "Compiled model '" ++ m.name.text ++ "': " ++ toString m.statements.length
    ++ " statement(s), sampled variables " ++ Text.bracketed (m.sampledNames.map Name.text)
    ++ ", data " ++ Text.bracketed (m.data.map Name.text)

/-- The compiled step of a model with the given instructions. -/
def stepOf (m : Model) (instructions : List Instruction) : Except Error CompiledStep := do
  let source ← m.source
  return ⟨m.name, m.data, m.sampledNames, m.scopes, instructions, source⟩

/-- The compiled step of a model. -/
def compile (m : Model) : Compilation :=
  match m.instructions with
  | .error e => ⟨[], .error e⟩
  | .ok is => ⟨[m.compiledNote], m.stepOf is⟩

end Model

/-- Instructions carried out one after the other. -/
def Instruction.runAll {σ : Type} (draw : Drawing σ) :
    Frame → List Instruction → Sampling σ Frame
  | f, [] => pure f
  | f, i :: rest => do
    let g ← i.run draw f
    runAll draw g rest

namespace CompiledStep

/-- The drawn variables that a state has no values for. -/
def missing (c : CompiledStep) (s : State) : List String :=
  (c.sampled.map Name.text).filter fun n => !s.has n

/-- One sweep. -/
def run {σ : Type} (c : CompiledStep) (draw : Drawing σ) (s : State) (data : List Value) :
    Sampling σ State :=
  if data.length ≠ c.data.length then
    throw (.sweepData c.name.text (c.data.map Name.text) data.length)
  else if !(c.missing s).isEmpty then throw (.stateIncomplete (c.missing s))
  else do
    let f ← Instruction.runAll draw ⟨s, [], data⟩ c.instructions
    return f.state

/-- One sweep that draws from a stream. -/
def sweep (c : CompiledStep) (s : State) (data : List Value) : Sampling Stream State :=
  c.run Family.draw s data

/-- A step as an object of its own. -/
def described (c : CompiledStep) : String :=
  "<CompiledStep: " ++ c.name.text ++ "(" ++ ", ".intercalate (c.data.map Name.text) ++ ")>"

/-- **A sweep that is not refused** carries out its instructions. -/
theorem run_of_complete {σ : Type} {c : CompiledStep} {s : State} {data : List Value}
    (hl : data.length = c.data.length) (h : c.missing s = []) (draw : Drawing σ) :
    c.run draw s data = Instruction.runAll draw ⟨s, [], data⟩ c.instructions
      >>= fun f => pure f.state := by
  simp only [run, hl, h, ne_eq, not_true_eq_false, if_false, List.isEmpty_nil, Bool.not_true,
    Bool.false_eq_true]

/-! ## Refused sweeps -/

/-- **A sweep with the wrong number of data arguments** uses up nothing. -/
theorem run_of_length_ne {σ : Type} {c : CompiledStep} {draw : Drawing σ} {s : State}
    {data : List Value} (h : data.length ≠ c.data.length) (r : σ) :
    (c.run draw s data).outcome r
      = (.error (.sweepData c.name.text (c.data.map Name.text) data.length), r) := by
  simp only [run, if_pos h]
  rfl

/-- **A sweep without values for some drawn variables** uses up nothing. -/
theorem run_of_missing {σ : Type} {c : CompiledStep} {draw : Drawing σ} {s : State}
    {data : List Value} (hl : data.length = c.data.length) (h : c.missing s ≠ []) (r : σ) :
    (c.run draw s data).outcome r = (.error (.stateIncomplete (c.missing s)), r) := by
  have h1 : (!(c.missing s).isEmpty) = true := by
    cases hm : c.missing s <;> simp_all
  simp only [run, ne_eq, hl, not_true_eq_false, if_false, h1, if_true]
  rfl

end CompiledStep

end Gibbs
