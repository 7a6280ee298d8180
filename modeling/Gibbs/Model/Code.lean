/-
  Code: statements whose names are bound to places.

  A reference is compiled to the place that its scope names: an entry of the state, an
  intermediate value of the sweep, or a position among the data arguments.  Compiled
  statements run on a frame.

  * `Code.eval`: the value of compiled code in a frame;
  * `Instruction.run`: a compiled statement; a drawing statement evaluates all parameters
    and then asks for one draw.
-/
import Gibbs.Model.Scope
import Gibbs.State

namespace Gibbs

/-- Where a reference finds its value. -/
inductive Place where
  | state (name : Name)
  | intermediate (name : Name)
  | data (position : Nat)
deriving DecidableEq

/-- An expression with its references bound to places. -/
inductive Code where
  | read (p : Place)
  | literal (v : Value)
  | unary (op : UnaryOp) (operand : Code)
  | binary (op : BinaryOp) (left right : Code)

/-- A compiled statement. -/
inductive Instruction where
  /-- a draw that goes into the state -/
  | draw (target : Name) (family : Family) (params : List (String × Code))
  /-- a value that goes among the locals -/
  | compute (target : Name) (code : Code)

/-! ## Compiling -/

/-- The place of a name. -/
def Model.place? (m : Model) (n : Name) : Option Place :=
  match m.scope? n with
  | some .state => some (.state n)
  | some .intermediate => some (.intermediate n)
  | some .data => some (.data (m.data.idxOf n))
  | none => none

/-- An expression with its names bound to places.  The abstract node has no code. -/
def Expr.compile (place? : Name → Option Place) : Expr → Except Error Code
  | .var n => match place? n with
    | some p => .ok (.read p)
    | none => .error (.fault .missingKey)
  | .literal v => .ok (.literal v)
  | .bare => .error .notCompilable
  | .unary op e => do
    let c ← e.compile place?
    return .unary op c
  | .binary op l r => do
    let c ← l.compile place?
    let d ← r.compile place?
    return .binary op c d

/-- A statement with its names bound to places. -/
def Statement.compile (place? : Name → Option Place) : Statement → Except Error Instruction
  | .sample n d => do
    let params ← d.parents.mapM fun (k, e) => do return (k, ← e.compile place?)
    return .draw n d.family params
  | .assign n e => do
    let c ← e.compile place?
    return .compute n c

/-! ## Running -/

/-- What a sweep works on: the state as far as it is updated, the values computed so far,
    the latest first, and the data arguments. -/
structure Frame where
  state : State
  locals : List (Name × Value)
  data : List Value

namespace Frame

/-- The value at a place. -/
def read (f : Frame) : Place → Except Error Value
  | .state n => match f.state.get? n.text with
    | some v => .ok v
    | none => .error (.fault .missingKey)
  | .intermediate n => match f.locals.lookup n with
    | some v => .ok v
    | none => .error (.fault .missingKey)
  | .data i => match f.data[i]? with
    | some v => .ok v
    | none => .error (.fault .badIndex)

/-- The frame with a variable updated. -/
def setState (f : Frame) (n : Name) (v : Value) : Frame :=
  { f with state := f.state.set n.text v }

/-- The frame with one more local value. -/
def setLocal (f : Frame) (n : Name) (v : Value) : Frame :=
  { f with locals := (n, v) :: f.locals }

end Frame

/-- The value of compiled code in a frame. -/
def Code.eval (f : Frame) : Code → Except Error Value
  | .read p => f.read p
  | .literal v => .ok v
  | .unary op c => do
    let v ← c.eval f
    orError (op.run v)
  | .binary op c d => do
    let v ← c.eval f
    let w ← d.eval f
    orError (op.run v w)

/-- How a sweep obtains a draw from a family and values of its parameters. -/
abbrev Drawing (σ : Type) := Family → List (String × Value) → Sampling σ Value

/-- A compiled statement, run on a frame. -/
def Instruction.run {σ : Type} (draw : Drawing σ) (f : Frame) :
    Instruction → Sampling σ Frame
  | .draw n family params => do
    let values ← Sampling.ofExcept (params.mapM fun (k, c) => do return (k, ← c.eval f))
    return f.setState n (← draw family values)
  | .compute n c => do
    let v ← Sampling.ofExcept (c.eval f)
    return f.setLocal n v

end Gibbs
