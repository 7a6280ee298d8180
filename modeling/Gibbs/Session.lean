/-
  Sessions: work on one model, with the latest of everything that was made from it.

  A session holds a draft, the step it was last compiled to, a sampler, a source of
  randomness, the latest state and the recorded chains.  What fails leaves these as they
  were; only randomness that was used up stays used up.

  * `Session.compile`, `build`, `step`, `sweep`, `run`: the ways to go on;
  * `Session.editInitial`, `editLatest`, `editData`: changes of a value in place.  A sampler
    shares its initial state and its data with whoever built it, and the latest state of a
    run is its last recorded draw, so a change shows in both.
-/
import Gibbs.Assembly.Mode
import Gibbs.Chain.Many

namespace Gibbs

/-- Work on one model. -/
structure Session where
  draft : Draft
  compiled? : Option NumberedStep
  sampler? : Option Sampler
  source? : Option Source
  /-- the children split off the source so far -/
  children : List Stream
  latest? : Option State
  chains? : Option (List (List State))
  /-- whether the latest state is the last recorded draw -/
  latestRecorded : Bool

/-- What a sampler is built from. -/
inductive Via where
  /-- the model as it stands -/
  | model
  /-- the step it was last compiled to -/
  | compiled
deriving DecidableEq, Repr

namespace Session

/-- A session that starts with a model. -/
def ofModel (m : Model) : Session :=
  { draft := .ofModel m, compiled? := none, sampler? := none, source? := none, children := [],
    latest? := none, chains? := none, latestRecorded := false }

/-- The session with one more statement in its model. -/
def add (s : Session) (st : Statement) : Session := { s with draft := s.draft.add st }

/-- The step of the model, and whether it is the one that was compiled last. -/
def compile (s : Session) : Except Error (CompiledStep × Bool) × Session :=
  match s.draft.compile with
  | (.error e, draft) => (.error e, { s with draft := draft })
  | (.ok c, draft) =>
    let same := match s.compiled? with
      | some b => b.number == c.number
      | none => false
    (.ok (c.step, same), { s with draft := draft, compiled? := some c })

/-- A sampler of the model, or of the step it was last compiled to. -/
def build (s : Session) (via : Via) (initial : State) (data : List Value) :
    Except Error Sampler × Session :=
  let (step?, draft) := match via, s.compiled? with
    | .model, _ =>
      let (r, draft) := s.draft.compile
      (r.map NumberedStep.step, draft)
    | .compiled, some c => (.ok c.step, s.draft)
    | .compiled, none => (.error (.fault .noAttribute), s.draft)
  let s := { s with draft := draft }
  match step? with
  | .error e => (.error e, s)
  | .ok c => match c.build initial data with
    | .error e => (.error e, s)
    | .ok h => (.ok h, { s with sampler? := some h })

/-- The session with a new source of randomness. -/
def setSource (s : Session) (source : Source) : Session :=
  { s with source? := some source, children := [] }

/-- One transition of the sampler, from a state or else from the initial one.  The new state
    becomes the latest one. -/
def step (s : Session) (from? : Option State) : Except Error State × Session :=
  match s.sampler?, s.source? with
  | some h, some source => match h.stepFrom source from? with
    | (.error e, source) => (.error e, { s with source? := some source })
    | (.ok t, source) =>
      (.ok t, { s with source? := some source, latest? := some t, latestRecorded := false })
  | _, _ => (.error (.fault .refusedArgument), s)

/-- A draw that is refused because there is no stream to draw from. -/
def refusedDrawing : Drawing Unit := fun _ _ => throw (.fault .refusedArgument)

/-- One sweep of the step that was last compiled.  Without a stream it fails at its first
    draw. -/
def sweep (s : Session) (start : State) (data : List Value) : Except Error State × Session :=
  match s.compiled? with
  | none => (.error (.fault .wrongType), s)
  | some c =>
    match s.source?.bind fun source => source.direct?.map fun stream => (source, stream) with
    | some (source, stream) =>
      let (r, stream) := (c.step.sweep start data).outcome stream
      (r, { s with source? := some (source.close stream) })
    | none => (((c.step.run refusedDrawing start data).outcome ()).1, s)

/-- A run of several chains.  If it ends, its last draw becomes the latest state. -/
def run (s : Session) (p : Plan Stream) (recorded : Bool) : RunEnd × Session :=
  match s.sampler?, s.source? with
  | some h, some source =>
    let r := h.runChains p source
    let s := { s with source? := some r.source, children := s.children ++ r.children }
    match r.outcome with
    | .finished chains =>
      if recorded then
        let s := { s with chains? := some chains, latestRecorded := false }
        match chains.getLast?.bind List.getLast? with
        | some t => (r, { s with latest? := some t, latestRecorded := true })
        | none => (r, s)
      else (r, s)
    | _ => (r, s)
  | _, source? => (.refused (source?.getD .unsplittable) (.fault .refusedArgument), s)

/-! ## Changes in place -/

/-- An array with one cell replaced, counted in storage order from either end. -/
def setCell (t : Tensor) (place : Int) (v : Value) : Except Fault Tensor := do
  let cell ← v.single
  let i := if place < 0 then place + t.shape.size else place
  if i < 0 || t.shape.size ≤ i.toNat then throw .badIndex
  return ⟨t.kind, Grid.ofFn t.shape fun idx =>
    if t.shape.offset idx == i.toNat then t.kind.ofPlain cell else t.grid.get idx⟩

/-- A value with one of its cells replaced, or replaced as a whole. -/
def edited (old : Value) (place? : Option Int) (v : Value) : Except Error Value :=
  match place?, old with
  | none, _ => .ok v
  | some i, .array t => do return .array (← orError (setCell t i v))
  | some _, _ => .error (.fault .noAttribute)

/-- A state with an entry edited, and the new value of the entry. -/
def editState (s : State) (name : String) (place? : Option Int) (v : Value) :
    Except Error (Value × State) :=
  match s.get? name, place? with
  | none, some _ => .error (.fault .missingKey)
  | old?, _ => do
    let new ← edited (old?.getD v) place? v
    return (new, s.set name new)

/-- The initial state of the sampler, edited. -/
def editInitial (s : Session) (name : String) (place? : Option Int) (v : Value) :
    Except Error (Value × Session) :=
  match s.sampler? with
  | none => .error (.fault .noAttribute)
  | some h => do
    let (now, t) ← editState h.initial name place? v
    return (now, { s with sampler? := some { h with initial := t } })

/-- Chains with the last draw of the last chain replaced. -/
def replaceLast (chains : List (List State)) (t : State) : List (List State) :=
  match chains.getLast? with
  | none => chains
  | some c => chains.dropLast ++ [c.dropLast ++ [t]]

/-- The latest state, edited. -/
def editLatest (s : Session) (name : String) (place? : Option Int) (v : Value) :
    Except Error (Value × Session) :=
  match s.latest? with
  | none => .error (.fault .wrongType)
  | some old => do
    let (now, t) ← editState old name place? v
    let chains? := if s.latestRecorded then s.chains?.map fun cs => replaceLast cs t
      else s.chains?
    return (now, { s with latest? := some t, chains? := chains? })

/-- A data argument of the sampler, edited.  Arguments can be changed but not replaced. -/
def editData (s : Session) (position : Nat) (place? : Option Int) (v : Value) :
    Except Error (Value × Session) :=
  match s.sampler?, place? with
  | none, _ => .error (.fault .noAttribute)
  | some _, none => .error (.fault .wrongType)
  | some h, some _ => match h.data[position]? with
    | none => .error (.fault .badIndex)
    | some old => do
      let new ← edited old place? v
      return (new, { s with sampler? := some { h with data := h.data.set position new } })

end Session

end Gibbs
