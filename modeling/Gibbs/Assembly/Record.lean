/-
  Records: the draws of several chains, and the values of one variable in them.

  * `variableNames`: the variables, taken from the first recorded state;
  * `valuesOf`: the values of a variable as arrays, chain by chain; a state without the
    variable is an error.
-/
import Gibbs.State
import Gibbs.Error

namespace Gibbs.Assembly

/-- The draws of one chain. -/
abbrev Draws := List State

/-- The variables of the first recorded state. -/
def variableNames (chains : List Draws) : List String :=
  match chains.flatten with
  | [] => []
  | s :: _ => s.keys

/-- The value of a variable in a state, as an array. -/
def valueOf (name : String) (s : State) : Except Error Tensor :=
  match s.get? name with
  | some v => orError v.toTensor
  | none => .error (.variableMissing name)

/-- The values of a variable, chain by chain. -/
def valuesOf (chains : List Draws) (name : String) : Except Error (List (List Tensor)) :=
  chains.mapM fun draws => draws.mapM (valueOf name)

end Gibbs.Assembly
