/-
  The source of a compiled sweep: a readable function that does what the sweep does.

  Drawn variables are shown as entries of the new state, data arguments and intermediate
  values by their bare names.

  * `Model.source`: the lines of the function.
-/
import Gibbs.Model.Scope

namespace Gibbs

namespace Model

/-- An entry of the new state. -/
def stateEntry (name : String) : String := "new_state[\"" ++ name ++ "\"]"

/-- A name inside the source. -/
def sourceName (m : Model) (name : String) : String :=
  if m.draws name then stateEntry name else name

/-- The line of a statement. -/
def sourceLine (m : Model) : Statement → Except Error String
  | .sample n d => do
    return "    " ++ m.sourceName n.text ++ " = draw(rng, " ++ (← d.render m.sourceName) ++ ")"
  | .assign n e => do return "    " ++ n.text ++ " = " ++ (← e.render m.sourceName)

/-- The first line of the source. -/
def sourceHead (m : Model) : String :=
  "def " ++ m.name.text ++ "(" ++ ", ".intercalate ("rng" :: "state" :: m.data.map Name.text)
    ++ "):"

/-- The source of the sweep of a model. -/
def source (m : Model) : Except Error String := do
  let lines ← m.statements.mapM m.sourceLine
  return "\n".intercalate
    ([m.sourceHead, "    new_state = deepcopy(state)"] ++ lines ++ ["    return new_state"])

end Model

end Gibbs
