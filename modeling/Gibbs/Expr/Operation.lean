/-
  Named operations.

  A named operation wraps a class of nodes: called on values it computes at once, called on
  an expression it builds a node of its class.  Only classes of operations can be wrapped,
  and an abstract one cannot be called.

  * `Operation.declare`: a class as a named operation;
  * `Operation.call`: the operation applied to one operand.
-/
import Gibbs.Expr.Build

namespace Gibbs

/-- What is offered as the class of a named operation. -/
inductive OfferedClass where
  | missing
  /-- a class whose members are no operations -/
  | other
  /-- the class of all operations, which has no members of its own -/
  | abstract
  | concrete (op : UnaryOp)

/-- A named operation; without an operation of one operand it is abstract. -/
structure Operation where
  name : String
  op? : Option UnaryOp

/-- A class as a named operation. -/
def Operation.declare (name : String) : OfferedClass → Except Error Operation
  | .missing => .error .operationWithoutClass
  | .other => .error .operationOfOtherClass
  | .abstract => .ok ⟨name, none⟩
  | .concrete op => .ok ⟨name, some op⟩

/-- The operation applied to one operand. -/
def Operation.call (o : Operation) (a : Operand) : Except Error Operand :=
  match o.op? with
  | none => .error (.fault .wrongType)
  | some op => a.call₁ op

end Gibbs
