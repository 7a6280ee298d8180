/-
  Values: what variables, data arguments and literals hold.

  A value is a plain scalar, a single cell of an array, an array, or a list, tuple or
  dictionary of values.  Plain scalars and cells differ: a plain integer has any size and
  takes the kind of what it meets, a cell has a fixed kind of its own.

  * `Value.toTensor`: a value as an array; nested lists need one shape at every level;
  * `Value.ofTensor`: the result of an element-wise computation, a single cell if it has no
    axes.
-/
import Gibbs.Tensor.Select
import Gibbs.Value.PlainArith

namespace Gibbs

/-- The values of a model. -/
inductive Value where
  | plain (p : Plain)
  | cell (c : Cell)
  | array (t : Tensor)
  | list (vs : List Value)
  | tuple (vs : List Value)
  | dict (entries : List (String × Value))

instance : Inhabited Value := ⟨.plain .nothing⟩

namespace Value

/-- A plain integer. -/
def int (i : Int) : Value := .plain (.int i)

/-- A plain double. -/
def float (x : Float) : Value := .plain (.float x)

/-- A single double. -/
def double (x : Float) : Value := .cell ⟨.float .double, x⟩

/-- A cell as a value: texts and objects are plain. -/
def ofCell (c : Cell) : Value :=
  match c with
  | ⟨.text _, s⟩ => .plain (.text s)
  | ⟨.object, p⟩ => .plain p
  | c => .cell c

/-- An array as a value; without axes it is its only cell. -/
def ofTensor (t : Tensor) : Value :=
  match t.shape with
  | [] => ofCell (t.cell [])
  | _ => .array t

/-! ## Texts -/

/-- The text of a cell inside a program. -/
def cellText : Cell → String
  | ⟨.bool, b⟩ => "np." ++ Plain.boolText b ++ "_"
  | ⟨.float .half, x⟩ => "np.float16(" ++ Decimal.plainHalf x ++ ")"
  | c => "np." ++ c.kind.name ++ "(" ++ c.toPlain.written ++ ")"

/-- The nested lists of the cells of an array. -/
def nestedText (texts : List Nat → String) : Shape → List Nat → String
  | [], idx => texts idx
  | n :: s, idx =>
    "[" ++ ", ".intercalate ((List.range n).map fun i => nestedText texts s (idx ++ [i])) ++ "]"

/-- The text of an array: its cells if there are at most six, and its shape otherwise. -/
def arrayText (t : Tensor) : String :=
  if t.shape.size ≤ 6 then
    "array(" ++ nestedText (fun idx => (t.cell idx).toPlain.written) t.shape [] ++ ")"
  else "array(shape=" ++ t.shape.text ++ ")"

mutual

/-- The text of a value inside a program. -/
def written : Value → String
  | .plain p => p.written
  | .cell c => cellText c
  | .array t => arrayText t
  | .list vs => "[" ++ ", ".intercalate (writtenAll vs) ++ "]"
  | .tuple vs =>
    match vs with
    | [v] => "(" ++ written v ++ ",)"
    | vs => "(" ++ ", ".intercalate (writtenAll vs) ++ ")"
  | .dict es => "\x7b" ++ ", ".intercalate (writtenEntries es) ++ "\x7d"

/-- The texts of several values. -/
def writtenAll : List Value → List String
  | [] => []
  | v :: vs => written v :: writtenAll vs

/-- The texts of the entries of a dictionary. -/
def writtenEntries : List (String × Value) → List String
  | [] => []
  | (k, v) :: es => (Text.quoted k ++ ": " ++ written v) :: writtenEntries es

end

/-- The text of a value inside a message: that of its number, if it is a single one. -/
def shown : Value → String
  | .plain p => p.shown
  | .cell ⟨.float .half, x⟩ => Decimal.plainHalf x
  | .cell c => c.toPlain.shown
  | v => v.written

/-! ## Values as arrays -/

mutual

/-- A value as an array.  Lists and tuples become axes; what stands in them must have one
    shape.  A dictionary is a single object. -/
def toTensor : Value → Except Fault Tensor
  | .plain p => .ok (Tensor.ofPlain p)
  | .cell c => .ok (Tensor.ofCell c)
  | .array t => .ok t
  | .list vs => do
    match Tensor.stackFirst? (← toTensors vs) with
    | some t => return t
    | none => throw .badValue
  | .tuple vs => do
    match Tensor.stackFirst? (← toTensors vs) with
    | some t => return t
    | none => throw .badValue
  | .dict es => .ok (Tensor.ofPlain (.other (written (.dict es))))

/-- Several values as arrays. -/
def toTensors : List Value → Except Fault (List Tensor)
  | [] => .ok []
  | v :: vs => do
    let t ← toTensor v
    return t :: (← toTensors vs)

end

/-- A value as an array of doubles. -/
def toFloats (v : Value) : Except Fault (Grid Float) := do
  let t ← v.toTensor
  match t.kind with
  | .text _ => throw .badValue
  | .object => do
    let g ← (t.cellsAs .object).mapM fun p => match p with
      | .nothing => .error .wrongType
      | .other _ => .error .wrongType
      | p => match p.number? with
        | some n => n.toFloat
        | none => .error .badValue
    return g
  | _ => return t.cellsAs (.float .double)

end Value

end Gibbs
