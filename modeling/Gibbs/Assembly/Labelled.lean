/-
  Labelled arrays: assembled tensors with chains and draws in front and with named axes.

  The axes of a variable `x` are named `chain`, `draw`, `x_dim_0`, `x_dim_1`, and so on.

  * `chainMajor`: an array with its last axis first and the one before it second;
  * `Dataset.ofTensors`: labelled arrays with coordinates for chains and draws;
  * `Dataset.posterior?`: the same with coordinates for all axes, if there are variables.
-/
import Gibbs.Assembly.Tensors

namespace Gibbs.Assembly

/-- The position in an array that a position with chain and draw in front stands for. -/
def drawMajorPosition : List Nat → List Nat
  | c :: d :: idx => idx ++ [d, c]
  | idx => idx

/-- The array with its last axis first and the one before it second. -/
def chainMajor (t : Tensor) : Tensor :=
  match t.shape.reverse with
  | chains :: draws :: value => t.gather (chains :: draws :: value.reverse) drawMajorPosition
  | _ => t

/-- An array with named axes. -/
structure Labelled where
  dims : List String
  value : Tensor

/-- Labelled arrays with coordinates, each from zero on. -/
structure Dataset where
  vars : List (String × Labelled)
  /-- the number of coordinates along each named axis that has some -/
  coords : List (String × Nat)

/-- The names of the axes of the values of a variable. -/
def valueDims (name : String) (count : Nat) : List String :=
  (List.range count).map fun i => name ++ "_dim_" ++ toString i

/-- The labelled array of a variable. -/
def labelled (name : String) (t : Tensor) : Labelled :=
  ⟨"chain" :: "draw" :: valueDims name (t.rank - 2), chainMajor t⟩

/-- The numbers of chains and draws, from the first variable. -/
def extents : List (String × Tensor) → List (String × Nat)
  | [] => []
  | (_, t) :: _ => match t.shape.reverse with
    | chains :: draws :: _ => [("chain", chains), ("draw", draws)]
    | _ => []

/-- Whether a variable has the name of a common axis, which no dataset can hold. -/
def namesCommonAxis (ts : List (String × Tensor)) : Bool :=
  ts.any fun (n, _) => n == "chain" || n == "draw"

namespace Dataset

/-- Labelled arrays with coordinates for chains and draws. -/
def ofTensors (ts : List (String × Tensor)) : Except Error Dataset :=
  if namesCommonAxis ts then .error (.fault .badValue)
  else .ok ⟨ts.map fun (n, t) => (n, labelled n t), extents ts⟩

/-- The coordinates of the axes of the values of a variable. -/
def valueCoords (name : String) (t : Tensor) : List (String × Nat) :=
  (valueDims name (t.rank - 2)).zip t.shape

/-- Labelled arrays with coordinates for all axes, in the order of their names; nothing
    without variables. -/
def posterior? (ts : List (String × Tensor)) : Except Error (Option Dataset) := do
  if ts.isEmpty then return none
  let d ← ofTensors ts
  let coords := d.coords ++ ts.flatMap fun (n, t) => valueCoords n t
  return some { d with coords := coords.mergeSort fun a b => decide (a.1 ≤ b.1) }

end Dataset

end Gibbs.Assembly
