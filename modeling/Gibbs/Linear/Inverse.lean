/-
  The inverse of a square matrix, and of every matrix in a stack of them.

  Only arrays with at least two axes, the last two of the same extent, have an inverse, and
  a matrix with an exactly vanishing pivot has none.
-/
import Gibbs.Linear.Matrix
import Gibbs.Linear.Product

namespace Gibbs

/-- The inverse of every matrix formed by the last two axes. -/
def Tensor.inverse (t : Tensor) : Except Fault Tensor := do
  let columns := t.shape.getLastD 0
  let rows := t.shape.dropLast.getLastD 0
  if t.rank < 2 || rows != columns then throw .badMatrix
  match t.kind with
  | .text _ | .object => throw .textOperand
  | .float .half => throw .wrongType
  | _ => pure ()
  let g := t.cellsAs (.float .double)
  let lead : Shape := t.shape.dropLast.dropLast
  let inverses ← lead.indices.mapM fun idx =>
    match (Matrix.ofGrid columns g idx).inverse? with
    | some m => pure m
    | none => throw .badMatrix
  let table := inverses.toArray
  return Tensor.ofFloats <| Grid.ofFn t.shape fun idx =>
    let place := lead.offset (idx.take lead.length)
    match table[place]? with
    | some m => m.entry (idx.dropLast.getLastD 0) (idx.getLastD 0)
    | none => 0.0

/-- The inverse of a value. -/
def Value.inverse (v : Value) : Except Fault Value := do
  return .array (← (← v.toTensor).inverse)

end Gibbs
