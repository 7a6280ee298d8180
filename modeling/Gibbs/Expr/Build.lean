/-
  Building expressions.

  An operation whose operands are all values is carried out at once; as soon as one operand
  is an expression, a node is built and the values become literals.

  * `Operand`: a value or an expression;
  * `Expr.ofValue`: a value as a literal, lists and tuples as arrays;
  * `Operand.arith`, `neg`, `abs`, `transposed`, `items`, `index`: the operators;
  * `Operand.call₁`, `call₂`: the named functions;
  * `readNames`: names written one by one or in a single text.
-/
import Gibbs.Expr.Eval
import Gibbs.Text.Blank

namespace Gibbs

/-- An operand: a value, or an expression to be evaluated later. -/
inductive Operand where
  | value (v : Value)
  | node (e : Expr)

namespace Expr

/-- A value as a literal: lists and tuples become arrays. -/
def ofValue (v : Value) : Except Fault Expr :=
  match v with
  | .list _ | .tuple _ => do return .literal (.array (← v.toTensor))
  | v => .ok (.literal v)

/-- A variable, if its name is an identifier. -/
def ofName (s : String) : Except Error Expr :=
  match Name.ofText? s with
  | some n => .ok (.var n)
  | none => .error (.variableName s)

end Expr

namespace Operand

/-- An operand as an expression. -/
def toExpr : Operand → Except Error Expr
  | value v => orError (Expr.ofValue v)
  | node e => .ok e

/-- Whether the operand is an expression. -/
def isNode : Operand → Bool
  | node _ => true
  | value _ => false

/-- A literal made of an operand, which must be a value. -/
def literal : Operand → Except Error Expr
  | value v => orError (Expr.ofValue v)
  | node _ => .error .literalOfExpression

/-! ## Operators -/

/-- The matrix product by operator, which at least one array must take part in. -/
def productOfValues (v w : Value) : Except Fault Value :=
  match v, w with
  | .array _, _ => v.matmul w
  | _, .array _ => v.matmul w
  | _, _ => .error .wrongType

/-- A node with two operands. -/
def node₂ (op : BinaryOp) (a b : Operand) : Except Error Operand := do
  let l ← a.toExpr
  let r ← b.toExpr
  return .node (.binary op l r)

/-- An operator of arithmetic. -/
def arith (op : Arith) : Operand → Operand → Except Error Operand
  | value v, value w => do return .value (← orError (op.apply v w))
  | a, b => node₂ (.arith op) a b

/-- The operator of the matrix product. -/
def matmul : Operand → Operand → Except Error Operand
  | value v, value w => do return .value (← orError (productOfValues v w))
  | a, b => node₂ .matmul a b

/-- The negative. -/
def neg : Operand → Except Error Operand
  | value v => do return .value (← orError v.neg)
  | node e => .ok (.node (.unary .neg e))

/-- The absolute value by operator, which keeps plain numbers plain. -/
def abs : Operand → Except Error Operand
  | value (.plain p) => do return .value (.plain (← orError p.abs))
  | value (.cell c) => do return .value (← orError (Element.abs.apply (.cell c)))
  | value (.array t) => do return .value (← orError (Element.abs.apply (.array t)))
  | value _ => .error (.fault .wrongType)
  | node e => .ok (.node (.unary (.element .abs) e))

/-- The transpose by attribute, which only cells and arrays have. -/
def transposed : Operand → Except Error Operand
  | value (.array t) => .ok (.value (.array t.transpose))
  | value (.cell c) => .ok (.value (.cell c))
  | value _ => .error (.fault .noAttribute)
  | node e => .ok (.node (.unary .transpose e))

/-- The items of a value that has some; an expression has none. -/
def items : Operand → Except Error Operand
  | node e => .error (.notIterable e.className)
  | value (.list vs) => .ok (.value (.list vs))
  | value (.tuple vs) => .ok (.value (.list vs))
  | value (.dict es) => .ok (.value (.list (es.map fun e => .plain (.text e.1))))
  | value (.plain (.text s)) =>
    .ok (.value (.list (s.toList.map fun c => .plain (.text (String.singleton c)))))
  | value (.array t) =>
    match t.shape with
    | [] => .error (.fault .wrongType)
    | n :: _ => do
      let vs ← orError ((List.range n).mapM fun (i : Nat) => t.index (.int (i : Int)))
      return .value (.list vs)
  | value _ => .error (.fault .wrongType)

/-- Whether a key is or holds an expression. -/
def holdsExpression : Key → Bool
  | .foreign => true
  | .tuple ks => ks.any fun k => match k with
    | .foreign => true
    | _ => false
  | _ => false

/-- Indexing by a fixed key. -/
def index (o : Operand) (k : Key) : Except Error Operand :=
  match o with
  | value v => do return .value (← orError (v.index k))
  | node e =>
    if holdsExpression k then .error .expressionKey else .ok (.node (.unary (.index k) e))

/-! ## Named functions -/

/-- A function of one operand, carried out at once on a value. -/
def call₁ (op : UnaryOp) (a : Operand) : Except Error Operand := do
  let e ← a.toExpr
  if a.isNode then return .node (.unary op e)
  return .value (← (Expr.unary op e).constantValue)

/-- A function of two operands, carried out at once on values. -/
def call₂ (op : BinaryOp) (a b : Operand) : Except Error Operand := do
  let l ← a.toExpr
  let r ← b.toExpr
  if a.isNode || b.isNode then return .node (.binary op l r)
  return .value (← (Expr.binary op l r).constantValue)

end Operand

/-! ## Names in a text -/

/-- Whether a character separates names in a text. -/
def separatesNames (c : Char) : Bool := c == ',' || Text.isBlank c

/-- The texts that are meant as names: a single text is split at commas and blanks, several
    are taken as they are. -/
def nameTexts : List String → List String
  | [s] => (Text.words separatesNames s.toList).map String.ofList
  | ss => ss

/-- References to the names given one by one or in a single text. -/
def readNames (texts : List String) : Except Error (List Name) :=
  (nameTexts texts).mapM fun s =>
    match Name.ofText? s with
    | some n => .ok n
    | none => .error (.variableName s)

end Gibbs
