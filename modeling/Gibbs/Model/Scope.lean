/-
  Scopes: where a sweep finds what a name stands for.

  A name that is drawn anywhere in the model lives in the state, a data argument among the
  data, and an intermediate value, after its assignment, among the values of the sweep.

  * `Model.checkNames`: statements are there, something is drawn, and no name is declared in
    two ways;
  * `Model.checkReferences`: every reference is to a name that is drawn, a data argument or
    assigned by an earlier statement;
  * `Model.scopes`: the scope of every name of the model.
-/
import Gibbs.Model.Basic

namespace Gibbs

/-- Where the value of a name lives during a sweep. -/
inductive Scope where
  | state
  | intermediate
  | data
deriving DecidableEq, Repr

/-- The word for a scope. -/
def Scope.word : Scope → String
  | state => "state"
  | intermediate => "local"
  | data => "data"

/-- Names in alphabetical order, each once. -/
def sortedTexts (names : List Name) : List String :=
  (names.map Name.text).eraseDups.mergeSort fun a b => decide (a ≤ b)

namespace Model

/-- The names that occur more than once among the data arguments. -/
def repeatedData (m : Model) : List Name := m.data.filter fun n => 1 < m.data.count n

/-- The names that are both drawn and data arguments. -/
def sampledData (m : Model) : List Name := m.sampledNames.filter fun n => m.data.contains n

/-- The intermediate values with the name of a drawn variable or of a data argument. -/
def shadowingNames (m : Model) : List Name :=
  m.intermediateNames.filter fun n => m.sampledNames.contains n || m.data.contains n

/-- The check of the declarations of a model. -/
def checkNames (m : Model) : Except Error Unit :=
  if m.statements.isEmpty then .error (.noStatements m.name.text)
  else if !m.repeatedData.isEmpty then .error (.dataRepeated (sortedTexts m.repeatedData))
  else if m.sampledNames.isEmpty then .error (.nothingSampled m.name.text)
  else if !m.sampledData.isEmpty then .error (.dataSampled (sortedTexts m.sampledData))
  else if !m.shadowingNames.isEmpty then .error (.nameShadowed (sortedTexts m.shadowingNames))
  else .ok ()

/-- The first name of a statement that is not among the defined ones. -/
def undefinedName? (defined : List Name) (s : Statement) : Option Name :=
  s.names.find? fun n => !defined.contains n

/-- The names that are defined after a statement. -/
def definedAfter (defined : List Name) (s : Statement) : List Name :=
  match s.assigned? with
  | some n => n :: defined
  | none => defined

/-- The check of the references of statements, given the names defined before them.  The
    message of an undefined name shows its statement. -/
def checkReferences : List Name → List Statement → Except Error Unit
  | _, [] => .ok ()
  | defined, s :: rest =>
    match undefinedName? defined s with
    | some n => do
      let t ← s.text
      throw (.undefinedName t n.text)
    | none => checkReferences (definedAfter defined s) rest

/-- The check of all names of a model. -/
def check (m : Model) : Except Error Unit := do
  m.checkNames
  checkReferences (m.sampledNames ++ m.data) m.statements

/-- The scope of a name, if the model declares it. -/
def scope? (m : Model) (n : Name) : Option Scope :=
  if m.sampledNames.contains n then some .state
  else if m.data.contains n then some .data
  else if m.intermediateNames.contains n then some .intermediate
  else none

/-- The scope of every name that the model declares. -/
def scopes (m : Model) : List (Name × Scope) :=
  m.sampledNames.map (·, .state) ++ m.data.map (·, .data)
    ++ m.intermediateNames.map (·, .intermediate)

end Model

end Gibbs
