/-
  Tensors: all draws of a variable in one array.

  The axes of a value come first, then the draws, then the chains.  Chains must have the same
  number of draws and all values of a variable the same shape.

  * `tensorOf`: the array of one variable;
  * `tensors`: the arrays of all variables, in the order of the first recorded state.
-/
import Gibbs.Assembly.Record

namespace Gibbs.Assembly

/-- The shapes of the values that differ from an expected one, in order, each once. -/
def otherShapes (expected : Shape) (values : List (List Tensor)) : List Shape :=
  (((values.flatten.map Tensor.shape).filter (· != expected)).eraseDups).mergeSort
    fun s t => !Shape.precedes t s

/-- Values stacked by draws within each chain and then by chains. -/
def stacked (values : List (List Tensor)) : Except Error Tensor := do
  let chains ← values.mapM fun vs =>
    match Tensor.stackLast? vs with
    | some t => pure t
    | none => .error (.fault .badValue)
  match Tensor.stackLast? chains with
  | some t => return t
  | none => throw (.fault .badValue)

/-- The array of all draws of a variable. -/
def tensorOf (chains : List Draws) (name : String) : Except Error Tensor := do
  let values ← valuesOf chains name
  let expected := (values.flatten.map Tensor.shape).headD []
  let others := otherShapes expected values
  if !others.isEmpty then throw (.stackedShapes name expected others)
  stacked values

/-- Whether all chains have the same number of draws. -/
def equalLengths (chains : List Draws) : Bool :=
  match chains.map List.length with
  | [] => true
  | n :: ns => ns.all (· == n)

/-- The arrays of all variables. -/
def tensors (chains : List Draws) : Except Error (List (String × Tensor)) :=
  if !equalLengths chains then .error (.unequalLengths (chains.map List.length))
  else (variableNames chains).mapM fun name => do return (name, ← tensorOf chains name)

end Gibbs.Assembly
