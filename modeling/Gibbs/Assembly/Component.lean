/-
  The scalar components of a variable and their labels.

  A scalar has one component, labelled with the bare name; the components of an array are
  labelled with the name and the position in square brackets.

  * `components`: all components in storage order;
  * `length_components`: one per cell of the shape.
-/
import Gibbs.Fault
import Gibbs.Tensor.Shape

namespace Gibbs.Assembly

/-- A position as text: its coordinates separated by commas. -/
def positionText (idx : List Nat) : String := ",".intercalate (idx.map toString)

/-- The label of the component of a variable at a position. -/
def componentLabel (name : String) : List Nat → String
  | [] => name
  | idx => name ++ "[" ++ positionText idx ++ "]"

/-- The components of a variable of a shape, each with its label and position, in storage
    order. -/
def components (name : String) (shape : Shape) : List (String × List Nat) :=
  shape.indices.map fun idx => (componentLabel name idx, idx)

/-- **One component per cell.** -/
theorem length_components (name : String) (shape : Shape) :
    (components name shape).length = shape.size := by simp [components]

/-- Extents as a shape; none of them may be negative. -/
def shapeOfExtents (extents : List Int) : Except Fault Shape :=
  extents.mapM fun n => if n < 0 then .error .badValue else .ok n.toNat

end Gibbs.Assembly
