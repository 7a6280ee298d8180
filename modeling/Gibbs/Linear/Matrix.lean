/-
  Square matrices of doubles: triangular factors, inverses, Cholesky factors and
  eigenvalues.

  * `Matrix.inverse?`: by elimination with the largest pivot of each column; none for a
    matrix with a pivot that is exactly zero;
  * `Matrix.cholesky?`: the lower triangular factor; none unless all pivots are positive;
  * `Matrix.eigen`: the eigenvalues and eigenvectors of a symmetric matrix, by rotations.
-/
import Gibbs.Tensor.Grid

namespace Gibbs

/-- A square matrix, row by row. -/
structure Matrix where
  size : Nat
  rows : Array (Array Float)

namespace Matrix

/-- The entry in row `i` and column `j`. -/
def entry (m : Matrix) (i j : Nat) : Float := (m.rows.getD i #[]).getD j 0.0

/-- The matrix with the given entries. -/
def ofFn (n : Nat) (f : Nat → Nat → Float) : Matrix :=
  ⟨n, (Array.range n).map fun i => (Array.range n).map fun j => f i j⟩

/-- The matrix of a grid at the positions that end in row and column. -/
def ofGrid (n : Nat) (g : Grid Float) (lead : List Nat) : Matrix :=
  ofFn n fun i j => g.get (lead ++ [i, j])

/-- The grid of a matrix. -/
def toGrid (m : Matrix) : Grid Float :=
  Grid.ofFn [m.size, m.size] fun idx => m.entry (idx.headD 0) (idx.getLastD 0)

/-- The unit matrix. -/
def identity (n : Nat) : Matrix := ofFn n fun i j => if i == j then 1.0 else 0.0

/-- The product. -/
def mul (a b : Matrix) : Matrix :=
  ofFn a.size fun i j =>
    (List.range a.size).foldl (fun s k => s + a.entry i k * b.entry k j) 0.0

/-- The transpose. -/
def transpose (a : Matrix) : Matrix := ofFn a.size fun i j => a.entry j i

/-- The matrix with two rows exchanged. -/
def swapRows (m : Matrix) (i j : Nat) : Matrix :=
  ⟨m.size, (m.rows.setIfInBounds i (m.rows.getD j #[])).setIfInBounds j (m.rows.getD i #[])⟩

/-! ## Inverses -/

/-- The row at or below `j` with the entry of largest magnitude in column `j`; the first of
    equal ones. -/
def pivotRow (m : Matrix) (j : Nat) : Nat :=
  (List.range (m.size - j - 1)).foldl
    (fun p k => if (m.entry (j + 1 + k) j).abs > (m.entry p j).abs then j + 1 + k else p) j

/-- One step of elimination on column `j`, with the multipliers kept below the diagonal;
    `order` lists the rows as they were.  A column is not divided by a pivot that is no normal
    number. -/
def eliminate? (m : Matrix) (order : List Nat) (j : Nat) : Option (Matrix × List Nat) :=
  let p := m.pivotRow j
  if m.entry p j == 0.0 then none
  else
    let m := m.swapRows j p
    let order := (order.set j (order.getD p 0)).set p (order.getD j 0)
    let d := m.entry j j
    let factor (i : Nat) : Float :=
      if d.abs ≥ 2.2250738585072014e-308 then m.entry i j * (1.0 / d) else m.entry i j
    let m := ofFn m.size fun i k =>
      if i ≤ j || k < j then m.entry i k
      else if k == j then factor i
      else m.entry i k - factor i * m.entry j k
    some (m, order)

/-- Both triangular factors in one matrix, and the order of the rows. -/
def factors? (m : Matrix) : Option (Matrix × List Nat) :=
  (List.range m.size).foldlM (fun (a, order) j => a.eliminate? order j)
    (m, List.range m.size)

/-- The solution for one column of the unit matrix. -/
def solveUnit (lu : Matrix) (order : List Nat) (column : Nat) : Array Float :=
  let n := lu.size
  let start := (Array.range n).map fun i => if order.getD i 0 == column then 1.0 else 0.0
  let forward := (List.range n).foldl
    (fun (x : Array Float) k =>
      (Array.range n).map fun i =>
        if i > k then x.getD i 0.0 - x.getD k 0.0 * lu.entry i k else x.getD i 0.0) start
  (List.range n).reverse.foldl
    (fun (x : Array Float) k =>
      let v := x.getD k 0.0 / lu.entry k k
      (Array.range n).map fun i =>
        if i < k then x.getD i 0.0 - v * lu.entry i k else if i == k then v else x.getD i 0.0)
    forward

/-- The inverse, unless a pivot is exactly zero. -/
def inverse? (m : Matrix) : Option Matrix :=
  m.factors?.map fun (lu, order) =>
    let columns := (Array.range m.size).map fun c => solveUnit lu order c
    ofFn m.size fun i j => (columns.getD j #[]).getD i 0.0

/-! ## Cholesky factors -/

/-- The lower triangular factor, which reads the lower triangle only; none unless every pivot
    is positive. -/
def cholesky? (m : Matrix) : Option Matrix :=
  (List.range m.size).foldlM
    (fun (l : Matrix) j =>
      let dotRows (i : Nat) : Float :=
        (List.range j).foldl (fun s k => s + l.entry i k * l.entry j k) 0.0
      let pivot := m.entry j j - dotRows j
      if pivot > 0.0 then
        let root := pivot.sqrt
        some (ofFn m.size fun i k =>
          if k != j then l.entry i k
          else if i == j then root
          else if i > j then (m.entry i j - dotRows i) / root
          else 0.0)
      else none)
    (ofFn m.size fun _ _ => 0.0)

/-! ## Triangular solutions -/

/-- The inverse of a lower triangular matrix. -/
def lowerInverse (l : Matrix) : Matrix :=
  let columns := (Array.range l.size).map fun c =>
    (List.range l.size).foldl
      (fun (x : Array Float) i =>
        let s := (List.range i).foldl (fun s k => s + l.entry i k * x.getD k 0.0) 0.0
        x.push (((if i == c then 1.0 else 0.0) - s) / l.entry i i)) #[]
  ofFn l.size fun i j => (columns.getD j #[]).getD i 0.0

/-! ## Eigenvalues of symmetric matrices -/

/-- One rotation that clears the entry in row `p` and column `q`, on the matrix and on the
    vectors. -/
def rotate (a v : Matrix) (p q : Nat) : Matrix × Matrix :=
  let apq := a.entry p q
  if apq == 0.0 then (a, v)
  else
    let theta := (a.entry q q - a.entry p p) / (2.0 * apq)
    let t := (if theta ≥ 0.0 then 1.0 else -1.0) / (theta.abs + (theta * theta + 1.0).sqrt)
    let c := 1.0 / (t * t + 1.0).sqrt
    let s := t * c
    let columns (m : Matrix) : Matrix := ofFn m.size fun i j =>
      if j == p then c * m.entry i p - s * m.entry i q
      else if j == q then s * m.entry i p + c * m.entry i q
      else m.entry i j
    let a := (columns (columns a).transpose).transpose
    let a := ofFn a.size fun i j =>
      if (i == p && j == q) || (i == q && j == p) then 0.0 else a.entry i j
    (a, columns v)

/-- One sweep of rotations over all pairs. -/
def sweepRotations (av : Matrix × Matrix) : Matrix × Matrix :=
  let n := av.1.size
  let pairs := (List.range n).flatMap fun p => ((List.range n).filter (p < ·)).map fun q => (p, q)
  pairs.foldl (fun av pq => rotate av.1 av.2 pq.1 pq.2) av

/-- The eigenvalues of the symmetric matrix with the given lower triangle, and the matrix
    whose columns are the eigenvectors. -/
def eigen (m : Matrix) : List Float × Matrix :=
  let a := ofFn m.size fun i j => if i ≥ j then m.entry i j else m.entry j i
  let (d, v) := (List.range 60).foldl (fun av _ => sweepRotations av) (a, identity m.size)
  ((List.range m.size).map fun i => d.entry i i, v)

end Matrix

end Gibbs
