/-
  Tables: one row per draw, one column per scalar component.

  Rows are ordered by chain and then by draw; chains may differ in length.  Columns follow
  the variables of the first recorded state and the storage order of their components.  All
  values of a variable must agree in shape and in the letter of their kind.

  * `rowIndex`: the chain and the draw of every row;
  * `checkRows`: the first row that disagrees with the first one is an error;
  * `table`: the table of all draws.
-/
import Gibbs.Assembly.Component
import Gibbs.Assembly.Record

namespace Gibbs.Assembly

/-- A column: the cells of one component, row by row. -/
structure Column where
  kind : Kind
  cells : List kind.Carrier

/-- A table; no label occurs twice. -/
structure Table where
  index : List (Nat × Nat)
  columns : List (String × Column)

/-- The chain and the draw of every row. -/
def rowIndex (chains : List Draws) : List (Nat × Nat) :=
  chains.zipIdx.flatMap fun (draws, c) => (List.range draws.length).map fun d => (c, d)

/-- The check of one row against the first one: shapes before kinds. -/
def checkRow (name : String) (first t : Tensor) : Except Error Unit :=
  if t.shape != first.shape then .error (.rowShape name first.shape t.shape)
  else if t.kind.letter != first.kind.letter then
    .error (.rowKind name first.kind.letter t.kind)
  else .ok ()

/-- The check of all rows, from the first one on. -/
def checkRows (name : String) (rows : List Tensor) : Except Error Unit :=
  match rows with
  | [] => .ok ()
  | first :: _ => rows.forM (checkRow name first)

/-- The column of a component in an array whose first axis runs over the rows. -/
def columnAt (t : Tensor) (idx : List Nat) : Column :=
  ⟨t.kind, (List.range (t.shape.headD 0)).map fun row => t.grid.get (row :: idx)⟩

/-- The columns of a variable, with their labels. -/
def columnsOf (chains : List Draws) (name : String) : Except Error (List (String × Column)) := do
  let rows := (← valuesOf chains name).flatten
  checkRows name rows
  match Tensor.stackFirst? rows with
  | none => throw (.fault .badValue)
  | some t => return (components name t.shape.tail).map fun (label, idx) => (label, columnAt t idx)

/-- The table of all draws.  A label that comes again replaces the cells of its column. -/
def table (chains : List Draws) : Except Error Table := do
  let columns ← (variableNames chains).mapM (columnsOf chains)
  return ⟨rowIndex chains, columns.flatten.foldl (fun t c => setEntry c.1 c.2 t) []⟩

/-- The name of the type of a column. -/
def Column.typeName (c : Column) : String :=
  match c.kind with
  | .text _ => "str"
  | k => k.name

end Gibbs.Assembly
