/-
  Distributions: a family with an expression for each of its parameters.

  * `Distribution.ofOperands`: a distribution from the operands given to its parameters,
    which must be exactly those of the family; constants are checked for their sign;
  * `Distribution.names`: the variables, in order of first use;
  * `Distribution.text`: the distribution as it stands in a model;
  * `Family.draw`, `Family.logDensities`: draws and log densities for values of the
    parameters; `Distribution.sample`, `Distribution.logDensities`: the same for constants.
-/
import Gibbs.Distribution.Family
import Gibbs.Expr.Build

namespace Gibbs

/-- A distribution: the expressions of the parameters are in the order of the family. -/
structure Distribution where
  family : Family
  parents : List (String × Expr)

/-! ## Checks -/

/-- Whether a number is zero or less. -/
def Plain.isNotPositive (p : Plain) : Except Fault Bool :=
  match p.number? with
  | some (.int i) => .ok (i ≤ 0)
  | some (.float x) => .ok (x ≤ 0.0)
  | none => .error .wrongType

/-- Whether some number of a value is zero or less. -/
def Value.hasNotPositive (v : Value) : Except Fault Bool := do
  let t ← v.toTensor
  match t.kind with
  | .text _ => throw .textOperand
  | _ => return (← t.plains.mapM Plain.isNotPositive).any id

namespace Distribution

/-- The check of one parameter: a constant that must be positive is. -/
def checkSign (f : Family) (p : Parameter) (e : Expr) : Except Error Unit :=
  if p.positive && e.isConstant then do
    let v ← e.constantValue
    if ← orError v.hasNotPositive then throw (.parameterNotPositive p.name f.name)
  else .ok ()

/-- The names of a list that are missing in another one, in alphabetical order. -/
def missingFrom (wanted present : List String) : List String :=
  (wanted.filter fun n => !present.contains n).mergeSort fun a b => decide (a ≤ b)

/-- The check of the names that are given to a family. -/
def checkNames (f : Family) (given : List String) : Except Error Unit :=
  let missing := missingFrom f.names given
  let unexpected := missingFrom given f.names
  if f.signed then
    if missing.isEmpty && unexpected.isEmpty then .ok () else .error (.fault .wrongType)
  else if f.law?.isNone || f.parameters.isEmpty then .error .familyIncomplete
  else if !missing.isEmpty then .error (.parametersMissing missing f.name)
  else if !unexpected.isEmpty then .error (.parametersUnexpected unexpected f.name)
  else .ok ()

/-- A distribution from the operands given to its parameters. -/
def ofOperands (f : Family) (given : List (String × Operand)) : Except Error Distribution := do
  checkNames f (given.map Prod.fst)
  let exprs ← f.parameters.mapM fun p => do
    let e ← ((given.lookup p.name).getD (.node .bare)).toExpr
    return (p, e)
  for (p, e) in exprs do checkSign f p e
  return ⟨f, exprs.map fun (p, e) => (p.name, e)⟩

/-! ## Properties -/

/-- The variables, in order of first use. -/
def names (d : Distribution) : List Name :=
  (d.parents.flatMap fun (_, e) => e.names).eraseDups

/-- The distribution as it stands in a model, with its names written by `formatName`. -/
def render (formatName : String → String) (d : Distribution) : Except Error String := do
  let args ← d.parents.mapM fun (n, e) => do return n ++ "=" ++ (← e.render formatName)
  return called d.family.name (", ".intercalate args)

/-- The distribution with bare names. -/
def text (d : Distribution) : Except Error String := d.render id

/-- The text of a distribution as an object of its own. -/
def described (d : Distribution) : Except Error String := do
  return "<" ++ (← d.text) ++ ">"

/-- The values of the parameters under a look-up of their names. -/
def eval (lookup : Name → Except Error Value) (d : Distribution) :
    Except Error (List (String × Value)) :=
  d.parents.mapM fun (n, e) => do return (n, ← e.eval lookup)

/-- The values of the parameters, none of which may refer to a variable. -/
def constantValues (d : Distribution) : Except Error (List (String × Value)) :=
  d.parents.mapM fun (n, e) => do return (n, ← e.constantValue)

end Distribution

/-! ## Draws and densities -/

namespace Family

/-- One draw for values of the parameters. -/
def draw (f : Family) (values : List (String × Value)) : Sampling Stream Value :=
  match f.law?, f.arguments values with
  | none, _ => throw .familyIncomplete
  | _, .error e => throw (.fault e)
  | some law, .ok args => law.draw args

/-- The log densities at a point for values of the parameters. -/
def logDensities (f : Family) (x : Value) (values : List (String × Value)) :
    Except Error (Grid Float) := do
  match f.law? with
  | none => throw .familyIncomplete
  | some law => orError (do law.logDensities x (← f.arguments values))

end Family

namespace Distribution

/-- One draw of a distribution with constant parameters. -/
def sample (d : Distribution) : Sampling Stream Value :=
  match d.constantValues with
  | .error e => throw e
  | .ok values => d.family.draw values

/-- The log densities of a distribution with constant parameters. -/
def logDensities (d : Distribution) (x : Value) : Except Error (Grid Float) := do
  d.family.logDensities x (← d.constantValues)

end Distribution

end Gibbs
