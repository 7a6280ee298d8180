/-
  Summaries: the mean and the standard deviation of every scalar component.

  * `summary`: one line per component, in storage order;
  * `mean`, `deviation`: the mean, and the square root of the sum of squared deviations over
    the number of draws less one.
-/
import Gibbs.Assembly.Labelled
import Gibbs.Value.Function

namespace Gibbs.Assembly

/-- The mean of a list of numbers. -/
def mean (xs : List Float) : Float := sumFloats xs / xs.length.toFloat

/-- The standard deviation of a list of numbers; nan for a single one. -/
def deviation (xs : List Float) : Float :=
  let m := mean xs
  let squares := xs.map fun x => (x - m) * (x - m)
  Float.sqrt (sumFloats squares / (xs.length.toFloat - 1.0))

/-- A line of a summary. -/
structure SummaryLine where
  label : String
  mean : Float
  deviation : Float

/-- The label of a component in a summary. -/
def summaryLabel (name : String) (idx : List Nat) : String :=
  if idx.isEmpty then name
  else name ++ "[" ++ ", ".intercalate (idx.map toString) ++ "]"

/-- The lines of a variable.  Texts and objects have no mean. -/
def summaryOf (name : String) (t : Tensor) : Except Error (List SummaryLine) :=
  match t.kind with
  | .text _ | .object => .error (.fault .wrongType)
  | _ =>
    let g := t.cellsAs (.float .double)
    let shape : Shape := t.shape.dropLast.dropLast
    let lead : Shape := t.shape.drop shape.length
    .ok (shape.indices.map fun idx =>
      let xs := lead.indices.map fun dc => g.get (idx ++ dc)
      ⟨summaryLabel name idx, mean xs, deviation xs⟩)

/-- The summary of all variables, of which there must be some. -/
def summary (ts : List (String × Tensor)) : Except Error (List SummaryLine) := do
  match ← Dataset.posterior? ts with
  | none => throw (.fault .badValue)
  | some _ => return (← ts.mapM fun (n, t) => summaryOf n t).flatten

end Gibbs.Assembly
