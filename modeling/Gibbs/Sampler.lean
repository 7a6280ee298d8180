/-
  Samplers: a transition bundled with an initial state and data arguments.

  * `CompiledStep.build`: the sampler of a compiled step, which takes exactly its data
    arguments;
  * `Sampler.step`: one transition from a state;
  * `Sampler.stepFrom`: one transition on a source of randomness, which must be a stream.
-/
import Gibbs.Model.Draft
import Gibbs.Stream.Source

namespace Gibbs

/-- What takes a chain from one state to the next. -/
inductive Transition where
  | compiled (c : CompiledStep)
  | function (f : State → List Value → Sampling Stream State)

/-- A transition with the state chains start from and its data arguments. -/
structure Sampler where
  initial : State
  transition : Transition
  data : List Value

/-- The sampler of a compiled step. -/
def CompiledStep.build (c : CompiledStep) (initial : State) (data : List Value) :
    Except Error Sampler :=
  if data.length = c.data.length then .ok ⟨initial, .compiled c, data⟩
  else .error (.handleData c.name.text (c.data.map Name.text) data.length)

namespace Sampler

/-- The variables that a transition updates; all variables if the transition does not name
    them. -/
def sampled (s : Sampler) : List String :=
  match s.transition with
  | .compiled c => c.sampled.map Name.text
  | .function _ => s.initial.keys

/-- A sampler of a compiled step as an object of its own. -/
def described (s : Sampler) : String :=
  let name := match s.transition with
    | .compiled c => c.name.text
    | .function _ => "function"
  "<GibbsSampler: " ++ name ++ " with " ++ toString s.data.length ++ " data argument(s)>"

/-- One transition. -/
def step (s : Sampler) (state : State) : Sampling Stream State :=
  match s.transition with
  | .compiled c => c.sweep state s.data
  | .function f => f state s.data

/-- One transition on a source, from a state or else from the initial one. -/
def stepFrom (s : Sampler) (source : Source) (state? : Option State) :
    Except Error State × Source :=
  match source.direct? with
  | none => (.error (.fault .refusedArgument), source)
  | some stream =>
    let (r, stream) := (s.step (state?.getD s.initial)).outcome stream
    (r, source.close stream)

end Sampler

end Gibbs
