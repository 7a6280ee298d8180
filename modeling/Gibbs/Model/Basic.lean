/-
  Models: what one sweep of a Gibbs sampler does, statement by statement.

  A statement draws a variable from a distribution, or gives an intermediate value a name
  for the rest of the sweep.  A model has a name, the names of its data arguments and its
  statements in the order in which a sweep carries them out.

  * `Statement.ofSample`, `Statement.ofAssign`, `Model.ofNames`: the parts of a model, whose
    names must be identifiers;
  * `Model.sampledNames`, `Model.intermediateNames`: what a model draws and assigns, in order
    of first occurrence;
  * `Model.text`: a model as it is written.
-/
import Gibbs.Distribution.Basic

namespace Gibbs

/-- A statement of a model. -/
inductive Statement where
  /-- a variable drawn from a distribution -/
  | sample (target : Name) (d : Distribution)
  /-- an intermediate value -/
  | assign (target : Name) (e : Expr)

namespace Statement

/-- A text as the name of a variable. -/
def targetOf (name : String) : Except Error Name :=
  match Name.ofText? name with
  | some n => .ok n
  | none => .error (.variableName name)

/-- A statement that draws a variable. -/
def ofSample (name : String) (d : Distribution) : Except Error Statement := do
  return .sample (← targetOf name) d

/-- A statement that assigns an intermediate value. -/
def ofAssign (name : String) (o : Operand) : Except Error Statement := do
  let target ← targetOf name
  return .assign target (← o.toExpr)

/-- The name on the left. -/
def target : Statement → Name
  | sample n _ => n
  | assign n _ => n

/-- The variables on the right, in order of first use. -/
def names : Statement → List Name
  | sample _ d => d.names
  | assign _ e => e.names

/-- The name that is drawn, if one is. -/
def sampled? : Statement → Option Name
  | sample n _ => some n
  | assign _ _ => none

/-- The name that is assigned, if one is. -/
def assigned? : Statement → Option Name
  | sample _ _ => none
  | assign n _ => some n

/-- A statement as it is written. -/
def text : Statement → Except Error String
  | sample n d => do return n.text ++ " ~ " ++ (← d.text)
  | assign n e => do return n.text ++ " = " ++ (← e.text)

/-- A statement together with its class name. -/
def described (s : Statement) : Except Error String := do
  let t ← s.text
  return match s with
  | sample _ _ => "<SampleStatement: " ++ t ++ ">"
  | assign _ _ => "<AssignStatement: " ++ t ++ ">"

end Statement

/-- A model. -/
structure Model where
  name : Name
  data : List Name
  statements : List Statement

namespace Model

/-- The name of a model that is given none. -/
def defaultName : String := "gibbs_model"

/-- The texts that are identifiers. -/
def identifiers (texts : List String) : List Name := texts.filterMap Name.ofText?

/-- The texts that are no identifiers. -/
def nonIdentifiers (texts : List String) : List String :=
  texts.filter fun t => !Text.isIdentifier t

/-- A model without statements. -/
def ofNames (name : String) (data : List String) : Except Error Model :=
  match Name.ofText? name with
  | none => .error (.modelName name)
  | some n =>
    let bad := nonIdentifiers data
    if bad.isEmpty then .ok ⟨n, identifiers data, []⟩ else .error (.dataNames bad)

/-- The model with one more statement at the end. -/
def add (m : Model) (s : Statement) : Model := { m with statements := m.statements ++ [s] }

/-- The variables that are drawn, in order of their first statement. -/
def sampledNames (m : Model) : List Name :=
  (m.statements.filterMap Statement.sampled?).eraseDups

/-- The intermediate values, in order of their first assignment. -/
def intermediateNames (m : Model) : List Name :=
  (m.statements.filterMap Statement.assigned?).eraseDups

/-- Whether a model draws a variable with a name. -/
def draws (m : Model) (name : String) : Bool := (m.sampledNames.map Name.text).contains name

/-- A model as it is written: its head, then one line per statement. -/
def text (m : Model) : Except Error String := do
  let head := m.name.text ++ "(" ++ ", ".intercalate (m.data.map Name.text) ++ "):"
  if m.statements.isEmpty then return head ++ "\n    <empty>"
  let lines ← m.statements.mapM fun s => do return "    " ++ (← s.text)
  return "\n".intercalate (head :: lines)

end Model

end Gibbs
