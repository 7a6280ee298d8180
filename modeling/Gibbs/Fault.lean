/-
  Faults: the ways in which a computation on values can fail.

  A fault has a cause and no text.  Failures that this library words itself are the
  constructors of `Error`; a fault is what arithmetic, indexing, linear algebra and the
  laws of the distributions report.
-/

namespace Gibbs

/-- The cause of a failed computation on values. -/
inductive Fault where
  /-- an operand of a type the operation does not take -/
  | wrongType
  /-- an operand of the right type with a value the operation does not take -/
  | badValue
  /-- an index outside its axis, or one that is no index -/
  | badIndex
  /-- a name that a mapping does not hold -/
  | missingKey
  /-- a result that its type cannot hold -/
  | overflow
  /-- a plain number divided by zero -/
  | divisionByZero
  /-- an attribute that a value does not have -/
  | noAttribute
  /-- a matrix that is singular, not square or not positive definite -/
  | badMatrix
  /-- an axis that an array does not have -/
  | badAxis
  /-- an operation on the cells of arrays that has no meaning on texts -/
  | textOperand
  /-- an argument refused by its declared type -/
  | refusedArgument
deriving DecidableEq, Repr

end Gibbs
