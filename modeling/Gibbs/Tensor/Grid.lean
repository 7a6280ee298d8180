/-
  Grids: cells of one type arranged by a shape.

  * `Grid.ofFn`, `Grid.get`: building a grid from the cell at every position, and reading
    it;
  * `get_ofFn`: what is read is what was put there;
  * `map`, `zipWith?`, `gather`, `stackLast`: cell-wise functions, re-arrangements and
    stacking along a new last axis.
-/
import Gibbs.Tensor.Shape

namespace Gibbs

variable {α β γ : Type}

/-- Cells arranged by a shape, the last axis running fastest. -/
structure Grid (α : Type) where
  shape : Shape
  cells : Array α
  size_cells : cells.size = shape.size

namespace Grid

/-- The grid with the given cell at every position. -/
def ofFn (shape : Shape) (f : List Nat → α) : Grid α where
  shape := shape
  cells := (shape.indices.map f).toArray
  size_cells := by simp

/-- The cell at a position (an arbitrary one outside the shape). -/
def get [Inhabited α] (g : Grid α) (idx : List Nat) : α :=
  g.cells.getD (g.shape.offset idx) default

/-- The cells in storage order. -/
def toList (g : Grid α) : List α := g.cells.toList

/-- The grid without axes. -/
def scalar (a : α) : Grid α := ofFn [] fun _ => a

/-- The grid with one axis. -/
def ofList (l : List α) : Grid α where
  shape := [l.length]
  cells := l.toArray
  size_cells := by simp [Shape.size]

/-- The same cells in another shape with as many cells. -/
def reshape? (g : Grid α) (shape : Shape) : Option (Grid α) :=
  if h : shape.size = g.shape.size then some ⟨shape, g.cells, by rw [h]; exact g.size_cells⟩
  else none

/-- All cells along one axis. -/
def ravel (g : Grid α) : Grid α where
  shape := [g.cells.size]
  cells := g.cells
  size_cells := by simp [Shape.size]

/-- The grid with a function applied to every cell. -/
def map (f : α → β) (g : Grid α) : Grid β where
  shape := g.shape
  cells := g.cells.map f
  size_cells := by simpa using g.size_cells

/-- A function that may fail, applied to every cell in storage order. -/
def mapM {ε : Type} [Inhabited β] (f : α → Except ε β) (g : Grid α) : Except ε (Grid β) := do
  let cells := (← g.toList.mapM f).toArray
  pure (ofFn g.shape fun idx => cells.getD (g.shape.offset idx) default)

/-- The grid of another shape whose cell at a position is the one that `source` names. -/
def gather [Inhabited α] (g : Grid α) (shape : Shape) (source : List Nat → List Nat) : Grid α :=
  ofFn shape fun idx => g.get (source idx)

/-- A function of two cells, applied at every position of the common shape. -/
def zipWith? [Inhabited α] [Inhabited β] (f : α → β → γ) (g : Grid α) (h : Grid β) :
    Option (Grid γ) :=
  (g.shape.broadcast? h.shape).map fun shape =>
    ofFn shape fun idx => f (g.get (g.shape.stretched idx)) (h.get (h.shape.stretched idx))

/-- Grids of one shape, stacked along a new last axis. -/
def stackLast [Inhabited α] (shape : Shape) (gs : List (Grid α)) : Grid α :=
  ofFn (shape ++ [gs.length]) fun idx =>
    match gs[idx.getLastD 0]? with
    | some g => g.get idx.dropLast
    | none => default

/-! ## Reading what was built -/

@[simp] theorem shape_ofFn (s : Shape) (f : List Nat → α) : (ofFn s f).shape = s := rfl

@[simp] theorem shape_map (f : α → β) (g : Grid α) : (g.map f).shape = g.shape := rfl

/-- **Reading what was built:** at every position of the shape, the cell that was put
    there. -/
theorem get_ofFn [Inhabited α] {s : Shape} {f : List Nat → α} {idx : List Nat}
    (h : s.admits idx = true) : (ofFn s f).get idx = f idx := by
  have h1 := Shape.getElem?_indices_offset h
  have h2 : ((s.indices.map f).toArray)[s.offset idx]? = some (f idx) := by simp [h1]
  simp only [get, shape_ofFn, Array.getD_eq_getD_getElem?]
  simp only [ofFn, h2, Option.getD_some]

end Grid

end Gibbs
