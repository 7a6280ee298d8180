/-
  Products of vectors and matrices.

  * `Value.matmul`: the matrix product, which takes a vector as a row on the left and as a
    column on the right, and stretches leading axes;
  * `Value.dot`: the dot product, which multiplies by scalars and combines all leading axes;
  * `Value.outer`: all products of the cells of two operands.
-/
import Gibbs.Value.Function

namespace Gibbs

/-- The sum of products of integers of a fixed width. -/
def contractInts (w : IntFormat) (count : Nat) (f g : Nat → Int) : Int :=
  (List.range count).foldl (fun s i => w.wrap (s + f i * g i)) 0

/-- The sum of products of doubles. -/
def contractFloats (count : Nat) (f g : Nat → Float) : Float :=
  (List.range count).foldl (fun s i => s + f i * g i) 0.0

/-- The sum of products of `count` pairs of cells. -/
def Kind.contract (k : Kind) (count : Nat) (f g : Nat → k.Carrier) : Except Fault k.Carrier :=
  match k, f, g with
  | .bool, f, g => .ok ((List.range count).any fun i => f i && g i)
  | .int w, f, g => .ok (contractInts w count f g)
  | .float w, f, g => .ok (w.round (contractFloats count f g))
  | .text _, _, _ => .error .badValue
  | .object, f, g => do
    let ps ← (List.range count).mapM fun i => Plain.mul (f i) (g i)
    Kind.total .object ps

/-- An array of contractions: at every position of `shape`, the sum of products of the cells
    at the positions that `left` and `right` name for each `i < count`. -/
def contractions (k : Kind) (s t : Tensor) (shape : Shape) (count : Nat)
    (left right : List Nat → Nat → List Nat) : Except Fault Tensor := do
  let g := s.cellsAs k
  let h := t.cellsAs k
  let cells ← shape.indices.mapM fun idx =>
    k.contract count (fun i => g.get (left idx i)) (fun i => h.get (right idx i))
  return Tensor.ofResults k shape cells

/-- The matrix product of two arrays. -/
def Tensor.matmul (s t : Tensor) : Except Fault Tensor := do
  let k := s.kind.join t.kind
  if k.isText then throw .textOperand
  if s.rank == 0 || t.rank == 0 then throw .badValue
  let s' : Shape := if s.rank == 1 then 1 :: s.shape else s.shape
  let t' : Shape := if t.rank == 1 then t.shape ++ [1] else t.shape
  let inner := s'.getLastD 0
  let rows := s'.dropLast.getLastD 0
  let columns := t'.getLastD 0
  if t'.dropLast.getLastD 0 != inner then throw .badValue
  let ls := s'.dropLast.dropLast
  let lt := t'.dropLast.dropLast
  match Shape.broadcast? ls lt with
  | none => throw .badValue
  | some lead =>
    let rowPart := if s.rank == 1 then [] else [rows]
    let columnPart := if t.rank == 1 then [] else [columns]
    let split (idx : List Nat) : List Nat × List Nat :=
      (idx.take lead.length, idx.drop lead.length)
    let left (idx : List Nat) (i : Nat) : List Nat :=
      let (a, rest) := split idx
      Shape.stretched ls a ++ (if s.rank == 1 then [] else rest.take 1) ++ [i]
    let right (idx : List Nat) (i : Nat) : List Nat :=
      let (a, rest) := split idx
      Shape.stretched lt a ++ [i] ++ (if t.rank == 1 then [] else [rest.getLastD 0])
    contractions k s t (lead ++ rowPart ++ columnPart) inner left right

/-- The dot product of two arrays. -/
def Tensor.dot (s t : Tensor) : Except Fault Tensor := do
  let k := s.kind.join t.kind
  if s.rank == 0 || t.rank == 0 then Arith.mul.cellwise (.array s) (.array t)
  else
    let inner := s.shape.getLastD 0
    let lead := s.shape.dropLast
    let (before, after) : Shape × Shape :=
      if t.rank == 1 then ([], []) else (t.shape.dropLast.dropLast, [t.shape.getLastD 0])
    let middle := if t.rank == 1 then t.shape.headD 0 else t.shape.dropLast.getLastD 0
    if middle != inner then throw .badValue
    let left (idx : List Nat) (i : Nat) : List Nat := idx.take lead.length ++ [i]
    let right (idx : List Nat) (i : Nat) : List Nat :=
      let rest := idx.drop lead.length
      rest.take before.length ++ [i] ++ rest.drop before.length
    contractions k s t (lead ++ before ++ after) inner left right

/-- The matrix product of two values. -/
def Value.matmul (a b : Value) : Except Fault Value := do
  let s ← a.toTensor
  let t ← b.toTensor
  return .ofTensor (← s.matmul t)

/-- The dot product of two values. -/
def Value.dot (a b : Value) : Except Fault Value := do
  let s ← a.toTensor
  let t ← b.toTensor
  return .ofTensor (← s.dot t)

/-- All products of the cells of two values. -/
def Value.outer (a b : Value) : Except Fault Value := do
  let s := (← a.toTensor).ravel
  let t := (← b.toTensor).ravel
  let column : Tensor := ⟨s.kind, s.grid.gather [s.shape.size, 1] fun idx => [idx.headD 0]⟩
  return .array (← Arith.mul.cellwise (.array column) (.array t))

end Gibbs
