/-
  Functions of one value: element-wise functions, sums, transposes and diagonals.

  They take plain scalars as single cells, so that their results are cells and arrays.

  * `Element.apply`: the element-wise functions;
  * `Value.sum`: the sum over all cells or over one axis;
  * `Value.transpose`, `Value.diagonal`, `Value.index`.

  Sums of doubles along the last axis are formed pairwise: runs of up to 128 terms in eight
  interleaved partial sums, longer ones from their halves.
-/
import Gibbs.Special.Log1p
import Gibbs.Value.Arith

namespace Gibbs

/-- The element-wise functions. -/
inductive Element where
  | abs
  | exp
  | log
  | log1p
  | sqrt
  | sin
  | cos
  | tanh
deriving DecidableEq, Repr

namespace Element

/-- The function on doubles. -/
def onFloat : Element → Float → Float
  | abs => Float.abs
  | exp => Float.exp
  | log => Float.log
  | log1p => Special.log1p
  | sqrt => Float.sqrt
  | sin => Float.sin
  | cos => Float.cos
  | tanh => Float.tanh

/-- The float format in which the cells of a kind are taken. -/
def formatOf : Kind → FloatFormat
  | .bool | .int .byte | .float .half => .half
  | _ => .double

/-- The function on the cells of an array. -/
def onTensor (e : Element) (t : Tensor) : Except Fault Tensor :=
  let inFloats : Tensor :=
    let f := formatOf t.kind
    ⟨.float f, (t.cellsAs (.float f)).map fun x => f.round (e.onFloat x)⟩
  match e, t with
  | .abs, ⟨.text _, _⟩ => .error .textOperand
  | _, ⟨.text _, _⟩ => .error .wrongType
  | .abs, ⟨.bool, _⟩ => .ok t
  | .abs, ⟨.int f, g⟩ => .ok ⟨.int f, g.map fun x => f.wrap (Int.natAbs x : Int)⟩
  | .abs, ⟨.object, g⟩ => do return ⟨.object, ← Grid.mapM Plain.abs g⟩
  | _, ⟨.object, _⟩ => .error .wrongType
  | _, _ => .ok inFloats

/-- The function on a value. -/
def apply (e : Element) (v : Value) : Except Fault Value := do
  return .ofTensor (← e.onTensor (← v.toTensor))

end Element

/-! ## Sums -/

/-- The sum of up to 128 doubles, in eight interleaved partial sums if there are at least
    eight. -/
def sumBlock (xs : Array Float) (start count : Nat) : Float :=
  let term (i : Nat) : Float := xs.getD (start + i) 0.0
  if count < 8 then (List.range count).foldl (fun s i => s + term i) (-0.0)
  else
    let whole := count / 8
    let partialSum (j : Nat) : Float :=
      (List.range (whole - 1)).foldl (fun s i => s + term (8 * (i + 1) + j)) (term j)
    let s := ((partialSum 0 + partialSum 1) + (partialSum 2 + partialSum 3))
      + ((partialSum 4 + partialSum 5) + (partialSum 6 + partialSum 7))
    (List.range (count % 8)).foldl (fun s i => s + term (8 * whole + i)) s

/-- The pairwise sum of a run of doubles. -/
def sumRun (xs : Array Float) (start count : Nat) : Float :=
  if count ≤ 128 then sumBlock xs start count
  else
    let half := count / 2 - (count / 2) % 8
    sumRun xs start half + sumRun xs (start + half) (count - half)
termination_by count
decreasing_by all_goals omega

/-- The pairwise sum of a list of doubles. -/
def sumFloats (xs : List Float) : Float :=
  let a := xs.toArray
  if a.isEmpty then 0.0 else sumRun a 0 a.size

/-- The kind of the sums of cells of a kind. -/
def Kind.summed : Kind → Kind
  | .bool | .int .byte => .int .word
  | k => k

/-- The sum of cells of one kind. -/
def Kind.total : (k : Kind) → List k.Carrier → Except Fault k.Carrier
  | .bool, l => .ok (l.any id)
  | .int f, l => .ok (f.wrap (l.foldl (fun s x => Int.add s x) (0 : Int)))
  | .float f, l => .ok (f.round (sumFloats l))
  | .text _, _ => .error .wrongType
  | .object, [] => .ok (.int 0)
  | .object, p :: l => l.foldlM Plain.add p

/-- The axis that a number names on an array with `rank` axes: negative numbers count from
    the last axis.  An array without axes has one for this purpose. -/
def axisNamed (rank : Nat) (axis : Int) : Except Fault Nat :=
  let n : Int := max rank 1
  let a := if axis < 0 then axis + n else axis
  if 0 ≤ a ∧ a < n then .ok a.toNat else .error .badAxis

/-- A list of sums arranged in a shape. -/
def Tensor.ofResults (k : Kind) (shape : Shape) (cells : List k.Carrier) : Tensor :=
  let a := cells.toArray
  ⟨k, Grid.ofFn shape fun idx => a.getD (shape.offset idx) default⟩

/-- The sum over all cells, or over one axis. -/
def Tensor.sum (t : Tensor) (axis : Option Int) : Except Fault Tensor := do
  let k := t.kind.summed
  let g := t.cellsAs k
  match axis with
  | none => return Tensor.ofCell ⟨k, ← k.total g.toList⟩
  | some a => do
    let a ← axisNamed t.rank a
    if t.rank == 0 then return Tensor.ofCell ⟨k, ← k.total g.toList⟩
    let shape : Shape := t.shape.eraseIdx a
    let sums ← shape.indices.mapM fun idx =>
      k.total ((List.range (t.shape.getD a 0)).map fun i => g.get (idx.insertIdx a i))
    return Tensor.ofResults k shape sums

/-- The sum over all cells of a value, or over one axis. -/
def Value.sum (axis : Option Int) (v : Value) : Except Fault Value := do
  return .ofTensor (← (← v.toTensor).sum axis)

/-! ## Re-arrangements -/

/-- The value with its axes in reverse order, always as an array. -/
def Value.transpose (v : Value) : Except Fault Value := do
  return .array (← v.toTensor).transpose

/-- The diagonal matrix of a vector, or the diagonal of a matrix. -/
def Value.diagonal (v : Value) : Except Fault Value := do
  return .array (← (← v.toTensor).diagonal)

/-! ## Indexing -/

/-- The part of a list that a key selects: one item or a sublist. -/
def selectItems {α β : Type} (l : List α) (one : α → β) (several : List α → β) :
    Key → Except Fault β
  | .int i => do
    match l[← axisPosition l.length i]? with
    | some a => return one a
    | none => throw .badIndex
  | .bool b => do
    match l[← axisPosition l.length (if b then 1 else 0)]? with
    | some a => return one a
    | none => throw .badIndex
  | .slice a b d => do
    let r ← sliceProgression l.length a b d
    return several ((List.range r.count).filterMap fun k => l[r.at k]?)
  | _ => .error .wrongType

/-- The part of an array that a key selects; a key that names a single cell gives the cell
    itself. -/
def Tensor.index (t : Tensor) (key : Key) : Except Fault Value := do
  let part ← t.select key
  return if key.isSingle t.rank then .ofTensor part else .array part

/-- The part of a value that a key selects. -/
def Value.index (v : Value) (key : Key) : Except Fault Value :=
  match v with
  | .array t => t.index key
  | .cell c =>
    match (Tensor.ofCell c).index key with
    | .ok v => .ok v
    | .error _ => .error .badIndex
  | .list vs => selectItems vs id .list key
  | .tuple vs => selectItems vs id .tuple key
  | .plain (.text s) =>
    selectItems s.toList (fun c => .plain (.text (String.singleton c)))
      (fun cs => .plain (.text (String.ofList cs))) key
  | .plain _ => .error .wrongType
  | .dict es =>
    match key with
    | .text k => match es.lookup k with
      | some v => .ok v
      | none => .error .missingKey
    | .slice _ _ _ | .list _ => .error .wrongType
    | _ => .error .missingKey

end Gibbs
