/-
  Output modes: the forms in which draws are handed out.

  * `Mode.ofText?`: a mode from its name;
  * `assemble`: draws in the form of a mode.
-/
import Gibbs.Assembly.Table
import Gibbs.Assembly.Tensors

namespace Gibbs.Assembly

/-- The forms in which draws are handed out. -/
inductive Mode where
  | tensor
  | tabular
  | states
deriving DecidableEq, Repr

/-- A mode from its name. -/
def Mode.ofText? : String → Option Mode
  | "tensor" => some .tensor
  | "tabular" => some .tabular
  | "states" => some .states
  | _ => none

/-- A mode from its name, or the fault of a name that stands for none. -/
def Mode.ofText (s : String) : Except Error Mode :=
  match ofText? s with
  | some m => .ok m
  | none => .error (.fault .badValue)

/-- Draws in the form of a mode. -/
inductive Assembled where
  | tensors (ts : List (String × Tensor))
  | table (t : Table)
  | states (chains : List Draws)

/-- Draws brought into the form of a mode. -/
def assemble (chains : List Draws) : Mode → Except Error Assembled
  | .tensor => do return .tensors (← Assembly.tensors chains)
  | .tabular => do return .table (← Assembly.table chains)
  | .states => .ok (.states chains)

end Gibbs.Assembly
