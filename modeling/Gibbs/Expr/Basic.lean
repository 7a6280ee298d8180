/-
  Expressions: the right-hand sides of statements.

  An expression refers to variables by name, holds literal values, and applies operations to
  other expressions.  What a name stands for is decided when the model is compiled.  All
  operations have one operand or two; so operations that are added to the ones below are
  restricted to one or two operands as well.

  * `Expr.walk`: all nodes, operands before the operation;
  * `Expr.names`: the variables, in order of first use.
-/
import Gibbs.Error
import Gibbs.Linear.Inverse

namespace Gibbs

/-- What a sum runs over: all cells, one axis, or a truth value, which is no axis. -/
inductive SumAxis where
  | all
  | at (axis : Int)
  | flag (b : Bool)
deriving DecidableEq, Repr

/-- An operation added to the ones below, on one operand or two: its class name, its symbol
    (empty if it cannot be displayed) and what it computes. -/
structure CustomOp (args : Type) where
  className : String
  symbol : String
  run : args → Except Fault Value

/-- The operations on one expression. -/
inductive UnaryOp where
  | neg
  | element (e : Element)
  | sum (axis : SumAxis)
  | inverse
  | transpose
  | diagonal
  | index (key : Key)
  | custom (c : CustomOp Value)

/-- The operations on two expressions. -/
inductive BinaryOp where
  | arith (a : Arith)
  | matmul
  | outer
  | dot
  | custom (c : CustomOp (Value × Value))

/-- An expression.  `bare` is the abstract node, which has no operands and no meaning. -/
inductive Expr where
  | var (name : Name)
  | literal (v : Value)
  | bare
  | unary (op : UnaryOp) (operand : Expr)
  | binary (op : BinaryOp) (left right : Expr)

instance : Inhabited Expr := ⟨.bare⟩

/-- The class name of an element-wise function. -/
def Element.className : Element → String
  | abs => "AbsExpression"
  | exp => "ExpExpression"
  | log => "LogExpression"
  | log1p => "Log1pExpression"
  | sqrt => "SqrtExpression"
  | sin => "SinExpression"
  | cos => "CosExpression"
  | tanh => "TanhExpression"

/-- The class name of an operation of arithmetic. -/
def Arith.className : Arith → String
  | add => "AddExpression"
  | sub => "SubtractExpression"
  | mul => "MultiplyExpression"
  | div => "DivideExpression"
  | pow => "PowerExpression"

/-- The class name of an operation on one expression. -/
def UnaryOp.className : UnaryOp → String
  | neg => "NegateExpression"
  | element e => e.className
  | sum _ => "SumExpression"
  | inverse => "InverseExpression"
  | transpose => "TransposeExpression"
  | diagonal => "DiagExpression"
  | index _ => "IndexExpression"
  | custom c => c.className

/-- The class name of an operation on two expressions. -/
def BinaryOp.className : BinaryOp → String
  | arith a => a.className
  | matmul => "MatMulExpression"
  | outer => "OuterExpression"
  | dot => "DotExpression"
  | custom c => c.className

namespace Expr

/-- The class name of a node. -/
def className : Expr → String
  | var _ => "Variable"
  | literal _ => "Literal"
  | bare => "Expression"
  | unary op _ => op.className
  | binary op _ _ => op.className

/-- All nodes, operands before the operation that takes them. -/
def walk : Expr → List Expr
  | unary op e => e.walk ++ [unary op e]
  | binary op l r => l.walk ++ r.walk ++ [binary op l r]
  | e => [e]

/-- The variables from left to right, as often as they occur. -/
def occurrences : Expr → List Name
  | var n => [n]
  | literal _ => []
  | bare => []
  | unary _ e => e.occurrences
  | binary _ l r => l.occurrences ++ r.occurrences

/-- The variables, in order of first use. -/
def names (e : Expr) : List Name := e.occurrences.eraseDups

/-- Whether no variable occurs. -/
def isConstant (e : Expr) : Bool := e.occurrences.isEmpty

end Expr

end Gibbs
