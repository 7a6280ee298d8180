/-
  Arithmetic on values.

  Plain scalars follow exact arithmetic.  As soon as a cell or an array takes part, the
  operands are brought to a common kind, stretched to a common shape, and combined cell by
  cell in the arithmetic of that kind: integers wrap around, floats give infinities, truth
  values add by "or" and multiply by "and".

  * `Arith.apply`: an operation on two values;
  * `Value.neg`: the negative.

  A plain integer or float takes part without a kind of its own: an integer takes any
  integer or float kind that holds it, a float takes any float kind.  Quotients of integers
  are doubles.
-/
import Gibbs.Value.Basic

namespace Gibbs

/-- The binary operations of arithmetic. -/
inductive Arith where
  | add
  | sub
  | mul
  | div
  | pow
deriving DecidableEq, Repr

/-! ## Operations on cells -/

/-- A power of integers of a fixed width: the square of the half power, step by step. -/
def wrappedPower (f : IntFormat) (base : Int) (exponent : Nat) : Int :=
  if exponent = 0 then f.wrap 1
  else
    let half := wrappedPower f (f.wrap (base * base)) (exponent / 2)
    if exponent % 2 = 1 then f.wrap (base * half) else half
termination_by exponent

namespace Arith

/-- The operation on plain scalars. -/
def onPlains : Arith → Plain → Plain → Except Fault Plain
  | add => Plain.add
  | sub => Plain.sub
  | mul => Plain.mul
  | div => Plain.div
  | pow => Plain.pow

/-- The operation on integers of a fixed width.  A negative power of an integer is
    refused. -/
def onInts (f : IntFormat) : Arith → Int → Int → Except Fault Int
  | add, x, y => .ok (f.wrap (x + y))
  | sub, x, y => .ok (f.wrap (x - y))
  | mul, x, y => .ok (f.wrap (x * y))
  | div, _, _ => .error .wrongType
  | pow, x, y => if y < 0 then .error .badValue else .ok (wrappedPower f x y.toNat)

/-- The operation on floats. -/
def onFloats (f : FloatFormat) : Arith → Float → Float → Float
  | add, x, y => f.round (x + y)
  | sub, x, y => f.round (x - y)
  | mul, x, y => f.round (x * y)
  | div, x, y => f.round (x / y)
  | pow, x, y => f.round (Float.pow x y)

/-- The operation on truth values. -/
def onBools : Arith → Bool → Bool → Except Fault Bool
  | add, x, y => .ok (x || y)
  | mul, x, y => .ok (x && y)
  | _, _, _ => .error .wrongType

/-- The fault of an operation that has no meaning on texts. -/
def textFault : Arith → Fault
  | pow => .wrongType
  | _ => .textOperand

/-- The operation on texts: they can only be joined. -/
def onTexts : Arith → String → String → Except Fault String
  | add, s, t => .ok (s ++ t)
  | op, _, _ => .error op.textFault

/-- The operation on cells of one kind. -/
def onCells (op : Arith) : (k : Kind) → k.Carrier → k.Carrier → Except Fault k.Carrier
  | .bool => onBools op
  | .int f => onInts f op
  | .float f => fun x y => .ok (onFloats f op x y)
  | .text _ => onTexts op
  | .object => onPlains op

end Arith

/-! ## Operands -/

/-- An operand of cell-wise arithmetic: an array, or a plain number that has no kind. -/
inductive Side where
  | array (t : Tensor)
  | int (i : Int)
  | float (x : Float)

/-- A value as an operand of cell-wise arithmetic. -/
def Value.side : Value → Except Fault Side
  | .plain (.int i) => .ok (.int i)
  | .plain (.float x) => .ok (.float x)
  | v => do return .array (← v.toTensor)

/-- The kind of an array that meets a plain integer. -/
def Kind.joinInt : Kind → Kind
  | .bool => .int .word
  | k => k

/-- The kind of an array that meets a plain float. -/
def Kind.joinFloat : Kind → Kind
  | .bool | .int _ => .float .double
  | k => k

/-- The common kind of two operands. -/
def Side.join : Side → Side → Kind
  | .array s, .array t => s.kind.join t.kind
  | .array s, .int _ => s.kind.joinInt
  | .array s, .float _ => s.kind.joinFloat
  | .int _, .array t => t.kind.joinInt
  | .float _, .array t => t.kind.joinFloat
  | .int _, .int _ => .int .word
  | _, _ => .float .double

/-- Whether an operand is text. -/
def Side.isText : Side → Bool
  | .array t => t.kind.isText
  | _ => false

/-- Whether an operand is an array of objects. -/
def Side.isObject : Side → Bool
  | .array ⟨.object, _⟩ => true
  | _ => false

/-- The kind in which two operands are combined. -/
def Arith.kindOf (op : Arith) (a b : Side) : Except Fault Kind :=
  if (a.isText != b.isText) && !a.isObject && !b.isObject then .error op.textFault
  else
    match op, a.join b with
    | .div, .bool => .ok (.float .double)
    | .div, .int _ => .ok (.float .double)
    | .pow, .bool => .ok (.int .byte)
    | .sub, .bool => .error .wrongType
    | _, k => .ok k

/-- A plain integer as a cell of a kind, if the kind holds it. -/
def Kind.ofPlainInt (k : Kind) (i : Int) : Except Fault k.Carrier :=
  match k with
  | .int f => if f.holds i then .ok i else .error .overflow
  | .float f => do return f.round (← floatOfInt i)
  | k => .ok (k.ofPlain (.int i))

/-- An operand as cells of a kind. -/
def Side.cellsAs (k : Kind) : Side → Except Fault (Grid k.Carrier)
  | .array t => .ok (t.cellsAs k)
  | .int i => do return Grid.scalar (← k.ofPlainInt i)
  | .float x => .ok (Grid.scalar (k.ofPlain (.float x)))

/-- The widest text among cells, for texts. -/
def Kind.fitted : (k : Kind) → Grid k.Carrier → Tensor
  | .text _, g => ⟨.text (g.toList.foldl (fun n s => max n (String.length s)) 0), g⟩
  | k, g => ⟨k, g⟩

/-- An operation on two operands, cell by cell. -/
def Arith.cellwise (op : Arith) (a b : Side) : Except Fault Tensor := do
  let k ← op.kindOf a b
  let g ← a.cellsAs k
  let h ← b.cellsAs k
  match g.zipWith? (fun x y => (x, y)) h with
  | none => throw .badValue
  | some pairs => return k.fitted (← pairs.mapM fun (x, y) => op.onCells k x y)

/-! ## Operations on values -/

/-- Whether a value takes part in cell-wise arithmetic by itself. -/
def Value.isCellwise : Value → Bool
  | .cell _ | .array _ => true
  | _ => false

/-- The count by which a sequence is repeated: an integer that is no array. -/
def Value.repeatCount? : Value → Option Int
  | .plain (.int i) => some i
  | .plain (.bool b) => some (if b then 1 else 0)
  | .cell ⟨.int _, i⟩ => some i
  | _ => none

/-- A list repeated. -/
def repeatList {α : Type} (l : List α) (n : Int) : Except Fault (List α) := do
  return (List.replicate (← repetitions n) l).flatten

/-- A sequence times a count, if one operand is a sequence and the other no array. -/
def Value.repeated? (a b : Value) : Option (Except Fault Value) :=
  let count (v : Value) (f : Int → Except Fault Value) : Option (Except Fault Value) :=
    match v with
    | .array _ => none
    | v => match v.repeatCount? with
      | some n => some (f n)
      | none => some (.error .wrongType)
  match a, b with
  | .list vs, v | v, .list vs => count v fun n => do return .list (← repeatList vs n)
  | .tuple vs, v | v, .tuple vs => count v fun n => do return .tuple (← repeatList vs n)
  | .plain (.text s), .cell c | .cell c, .plain (.text s) =>
    count (.cell c) fun n => do return .plain (.text (← repeatText s n))
  | _, _ => none

/-- The square root in place of the power one half, which differs from it at negative zero
    and at negative infinity. -/
def rootPower? : Value → Value → Option Tensor
  | .array ⟨.float f, g⟩, .plain (.float y) =>
    if y == 0.5 then some ⟨.float f, g.map fun x => f.round (Float.sqrt x)⟩ else none
  | _, _ => none

/-- An operation on two values. -/
def Arith.apply (op : Arith) (a b : Value) : Except Fault Value :=
  match op, a, b with
  | .add, .list vs, .list ws => .ok (.list (vs ++ ws))
  | .add, .tuple vs, .tuple ws => .ok (.tuple (vs ++ ws))
  | .add, .plain (.text _), .cell _ => .error .wrongType
  | op, .plain p, .plain q => do return .plain (← op.onPlains p q)
  | op, a, b =>
    let general : Except Fault Value :=
      if a.isCellwise || b.isCellwise then do
        let s ← a.side
        let t ← b.side
        return .ofTensor (← op.cellwise s t)
      else .error .wrongType
    match op with
    | .mul => (a.repeated? b).getD general
    | .pow => match rootPower? a b with
      | some t => .ok (.ofTensor t)
      | none => general
    | _ => general

/-- The negative of the cells of an array. -/
def Tensor.neg : Tensor → Except Fault Tensor
  | ⟨.bool, _⟩ => .error .wrongType
  | ⟨.int f, g⟩ => .ok ⟨.int f, g.map fun x => f.wrap (-x)⟩
  | ⟨.float f, g⟩ => .ok ⟨.float f, g.map Float.neg⟩
  | ⟨.text _, _⟩ => .error .textOperand
  | ⟨.object, g⟩ => do return ⟨.object, ← Grid.mapM Plain.neg g⟩

/-- The negative of a value. -/
def Value.neg : Value → Except Fault Value
  | .plain p => do return .plain (← p.neg)
  | .cell c => do return .ofTensor (← (Tensor.ofCell c).neg)
  | .array t => do return .ofTensor (← t.neg)
  | _ => .error .wrongType

end Gibbs
