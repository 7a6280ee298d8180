/-
  Arrays: a kind and a grid of cells of that kind.

  * `Tensor.cellsAs`: the cells of an array, converted to another kind;
  * `Tensor.gather`, `transpose`, `ravel`, `diagonal`: re-arrangements, which keep the kind;
  * `Tensor.stackFirst?`, `stackLast?`: arrays of one shape along a new first or last axis,
    converted to their common kind.
-/
import Gibbs.Fault
import Gibbs.Tensor.Grid
import Gibbs.Tensor.Kind

namespace Gibbs

/-- A single cell together with its kind. -/
structure Cell where
  kind : Kind
  value : kind.Carrier

/-- An array. -/
structure Tensor where
  kind : Kind
  grid : Grid kind.Carrier

/-- The cell as a plain scalar. -/
def Cell.toPlain (c : Cell) : Plain := c.kind.toPlain c.value

namespace Tensor

/-- The extents of the axes. -/
def shape (t : Tensor) : Shape := t.grid.shape

/-- The number of axes. -/
def rank (t : Tensor) : Nat := t.shape.length

/-- The array with one cell and no axes. -/
def ofCell (c : Cell) : Tensor := ⟨c.kind, Grid.scalar c.value⟩

/-- The array with one plain scalar and no axes. -/
def ofPlain (p : Plain) : Tensor :=
  let kind : Kind := match p with
    | .nothing => .object
    | .bool _ => .bool
    | .int i => .ofInt i
    | .float _ => .float .double
    | .text s => .text s.length
    | .other _ => .object
  ⟨kind, Grid.scalar (kind.ofPlain p)⟩

/-- An array of doubles. -/
def ofFloats (g : Grid Float) : Tensor := ⟨.float .double, g⟩

/-- An array of words. -/
def ofInts (g : Grid Int) : Tensor := ⟨.int .word, g⟩

/-- The cells of an array, converted to a kind. -/
def cellsAs (t : Tensor) (k : Kind) : Grid k.Carrier :=
  if h : t.kind = k then h ▸ t.grid else t.grid.map (t.kind.convert k)

/-- The cell at a position. -/
def cell (t : Tensor) (idx : List Nat) : Cell := ⟨t.kind, t.grid.get idx⟩

/-- The cells as plain scalars, in storage order. -/
def plains (t : Tensor) : List Plain := t.grid.toList.map t.kind.toPlain

/-! ## Re-arrangements -/

/-- The array of another shape whose cell at a position is the one that `source` names. -/
def gather (t : Tensor) (shape : Shape) (source : List Nat → List Nat) : Tensor :=
  ⟨t.kind, t.grid.gather shape source⟩

/-- The array with its axes in reverse order. -/
def transpose (t : Tensor) : Tensor := t.gather t.shape.reverse List.reverse

/-- All cells along one axis. -/
def ravel (t : Tensor) : Tensor := ⟨t.kind, t.grid.ravel⟩

/-- The same cells in another shape with as many cells. -/
def reshape? (t : Tensor) (shape : Shape) : Option Tensor :=
  (t.grid.reshape? shape).map fun g => ⟨t.kind, g⟩

/-- The square array with a vector on its diagonal, or the diagonal of a matrix. -/
def diagonal (t : Tensor) : Except Fault Tensor :=
  match t.shape with
  | [n] => .ok ⟨t.kind, Grid.ofFn [n, n] fun idx =>
      if idx.headD 0 == idx.getLastD 0 then t.grid.get [idx.headD 0]
      else t.kind.ofPlain (.int 0)⟩
  | [m, n] => .ok (t.gather [min m n] fun idx => idx ++ idx)
  | _ => .error .badValue

/-! ## Stacking -/

/-- The least kind that holds the cells of all arrays; without arrays, doubles. -/
def commonKind : List Tensor → Kind
  | [] => .float .double
  | t :: ts => ts.foldl (fun k u => k.join u.kind) t.kind

/-- Arrays of one shape along a new first axis. -/
def stackFirst? (ts : List Tensor) : Option Tensor :=
  let kind := commonKind ts
  let shape := (ts.map shape).headD []
  if ts.all fun t => t.shape == shape then
    let gs := (ts.map fun t => t.cellsAs kind).toArray
    some ⟨kind, Grid.ofFn (gs.size :: shape) fun idx =>
      match gs[idx.headD 0]? with
      | some g => g.get idx.tail
      | none => default⟩
  else none

/-- Arrays of one shape along a new last axis. -/
def stackLast? (ts : List Tensor) : Option Tensor :=
  let kind := commonKind ts
  let shape := (ts.map shape).headD []
  if ts.all fun t => t.shape == shape then
    some ⟨kind, Grid.stackLast shape (ts.map fun t => t.cellsAs kind)⟩
  else none

end Tensor

end Gibbs
