/-
  Values of expressions.

  * `Expr.eval`: the value of an expression under a look-up of its names, operands from left
    to right;
  * `Expr.constantValue`: the value of an expression without variables; asking it of another
    one is an error that names its variables.
-/
import Gibbs.Expr.Render

namespace Gibbs

/-- What an operation on one value computes. -/
def UnaryOp.run (v : Value) : UnaryOp → Except Fault Value
  | neg => v.neg
  | element e => e.apply v
  | sum .all => v.sum none
  | sum (.at i) => v.sum (some i)
  | sum (.flag _) => .error .wrongType
  | inverse => v.inverse
  | transpose => v.transpose
  | diagonal => v.diagonal
  | index k => v.index k
  | custom c => c.run v

/-- What an operation on two values computes. -/
def BinaryOp.run (v w : Value) : BinaryOp → Except Fault Value
  | arith a => a.apply v w
  | matmul => v.matmul w
  | outer => v.outer w
  | dot => v.dot w
  | custom c => c.run (v, w)

namespace Expr

/-- The value of an expression under a look-up of its names. -/
def eval (lookup : Name → Except Error Value) : Expr → Except Error Value
  | var n => lookup n
  | literal v => .ok v
  | bare => .error (.fault .noAttribute)
  | unary op e => do
    let v ← e.eval lookup
    orError (op.run v)
  | binary op l r => do
    let v ← l.eval lookup
    let w ← r.eval lookup
    orError (op.run v w)

/-- The error of asking for the value of an expression with variables; its message shows the
    expression. -/
def refuseOpen (e : Expr) : Except Error Unit :=
  if e.isConstant then .ok ()
  else do
    let t ← e.text
    throw (.openExpression t (e.names.map Name.text))

/-- The value of an expression without variables. -/
def constantValue (e : Expr) : Except Error Value := do
  e.refuseOpen
  e.eval fun _ => .error (.fault .missingKey)

/-- **A constant has one value**, whatever its names stand for. -/
theorem eval_congr_of_isConstant {e : Expr} (h : e.isConstant = true)
    (f g : Name → Except Error Value) : e.eval f = e.eval g := by
  induction e with
  | var n => simp [isConstant, occurrences] at h
  | literal v => rfl
  | bare => rfl
  | unary op e ih =>
    simp only [eval]
    rw [ih (by simpa [isConstant, occurrences] using h)]
  | binary op l r ihl ihr =>
    simp only [isConstant, occurrences, List.isEmpty_iff, List.append_eq_nil_iff] at h
    simp only [eval]
    rw [ihl (by simp [isConstant, h.1]), ihr (by simp [isConstant, h.2])]

end Expr

end Gibbs
