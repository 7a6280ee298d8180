/-
  Streams of randomness.

  A stream answers primitive calls with numbers and can be split into child streams.  There
  are two: a tape, which reads prepared numbers in a circle and records every call, and a
  seeded generator, which offers uniform numbers only: how a generator makes normal, gamma or
  other numbers out of its bits is left out.  What any finite use of a generator reads can be
  prepared as a tape.

  * `Sampling`: computations that use up a state and may fail; what was used up stays used
    up after a failure;
  * `Sampling.outcome_bind`: the outcome of one computation after the other;
  * `Stream.call`: the numbers for one primitive call;
  * `Stream.spawn`: the next children; the position of the parent stays where it is.
-/
import Gibbs.Error
import Gibbs.Stream.Pcg

namespace Gibbs

/-- A computation that uses up a state and may fail. -/
abbrev Sampling (σ α : Type) := ExceptT Error (StateM σ) α

/-- The outcome of a computation from a state: its result and the state after it. -/
def Sampling.outcome {σ α : Type} (m : Sampling σ α) (s : σ) : Except Error α × σ := m s

/-- A result that uses nothing up. -/
def Sampling.ofExcept {σ α : Type} (r : Except Error α) : Sampling σ α := fun s => (r, s)

namespace Sampling
variable {σ α β : Type}

@[simp] theorem outcome_pure (a : α) (r : σ) :
    (pure a : Sampling σ α).outcome r = (.ok a, r) := rfl

@[simp] theorem outcome_throw (e : Error) (r : σ) :
    (throw e : Sampling σ α).outcome r = (.error e, r) := rfl

@[simp] theorem outcome_ofExcept (x : Except Error α) (r : σ) :
    (ofExcept x : Sampling σ α).outcome r = (x, r) := rfl

/-- **One computation after the other:** a failure of the first one is the failure of both,
    and what it used up stays used up. -/
theorem outcome_bind (m : Sampling σ α) (f : α → Sampling σ β) (r : σ) :
    (m >>= f).outcome r = match m.outcome r with
      | (.ok a, r') => (f a).outcome r'
      | (.error e, r') => (.error e, r') := by
  show (ExceptT.bind m f : StateM σ (Except Error β)) r = _
  simp only [outcome, ExceptT.bind, ExceptT.mk, bind, StateT.bind, ExceptT.bindCont]
  rcases m r with ⟨_ | _, _⟩ <;> rfl

end Sampling

/-- The primitive draws that the laws are made of. -/
inductive Primitive where
  | standardNormal
  | standardExponential
  | standardGamma
  | uniform
  | beta
  | binomial
  | poisson
  | dirichlet
  | multivariateNormal
  | multinomial
  | normal
  | chisquare
deriving DecidableEq, Repr

/-- The name of a primitive. -/
def Primitive.name : Primitive → String
  | standardNormal => "standard_normal"
  | standardExponential => "standard_exponential"
  | standardGamma => "standard_gamma"
  | uniform => "uniform"
  | beta => "beta"
  | binomial => "binomial"
  | poisson => "poisson"
  | dirichlet => "dirichlet"
  | multivariateNormal => "multivariate_normal"
  | multinomial => "multinomial"
  | normal => "normal"
  | chisquare => "chisquare"

/-- A primitive call: its arguments, each as a list of numbers, and the shape of the result,
    if it was asked for one. -/
structure Call where
  primitive : Primitive
  args : List (List Float)
  size : Option Shape

/-- A tape of prepared numbers, read in a circle.  The children read from `children` in
    turn, or from the same numbers if there are none. -/
structure Tape where
  values : Array Float
  children : List (Array Float)
  position : Nat
  spawned : Nat
  calls : List Call

/-- A seeded generator together with the seed sequence it came from. -/
structure Seeded where
  bits : Pcg
  seeds : SeedSequence

/-- A stream of randomness. -/
inductive Stream where
  | tape (t : Tape)
  | seeded (g : Seeded)

namespace Tape

/-- A tape at its start. -/
def ofLists (values : List Float) (children : List (List Float)) : Tape :=
  ⟨values.toArray, children.map List.toArray, 0, 0, []⟩

/-- The number at a place, counted in a circle. -/
def valueAt (t : Tape) (place : Nat) : Float := t.values.getD (place % t.values.size) 0.0

/-- The next `count` numbers. -/
def take (t : Tape) (count : Nat) : List Float × Tape :=
  ((List.range count).map fun i => t.valueAt (t.position + i),
    { t with position := t.position + count })

/-- The tape with one more call on its record. -/
def record (t : Tape) (c : Call) : Tape := { t with calls := t.calls ++ [c] }

/-- The `k`-th child. -/
def child (t : Tape) (k : Nat) : Tape :=
  let values := match t.children with
    | [] => t.values
    | cs => cs.getD (k % cs.length) t.values
  ⟨values, [], 0, 0, []⟩

end Tape

namespace Seeded

/-- The generator of a seed sequence. -/
def ofSeeds (s : SeedSequence) : Seeded := ⟨Pcg.ofSeeds s, s⟩

/-- The next `count` uniform numbers. -/
def take (g : Seeded) (count : Nat) : List Float × Seeded :=
  (List.range count).foldl
    (fun (xs, g) _ =>
      let (x, bits) := g.bits.uniform
      (xs ++ [x], { g with bits := bits })) ([], g)

theorem take_succ (g : Seeded) (count : Nat) :
    g.take (count + 1)
      = ((g.take count).1 ++ [(g.take count).2.bits.uniform.1],
          { (g.take count).2 with bits := (g.take count).2.bits.uniform.2 }) := by
  simp [take, List.range_succ, List.foldl_append]

/-- **Uniform numbers do not depend on the seed sequence** beside the generator, and leave it
    as it is. -/
theorem take_withSeeds (g : Seeded) (s : SeedSequence) (count : Nat) :
    ({ g with seeds := s }).take count
      = ((g.take count).1, { (g.take count).2 with seeds := s }) := by
  induction count with
  | zero => rfl
  | succ count ih => simp only [take_succ, ih]

theorem seeds_take (g : Seeded) (count : Nat) : (g.take count).2.seeds = g.seeds := by
  induction count with
  | zero => rfl
  | succ count ih => simpa only [take_succ] using ih

end Seeded

namespace Stream

/-- The numbers for one primitive call.  A tape answers every call.  A seeded generator answers
    uniform calls only: it refuses all other primitives and stays where it is. -/
def call (c : Call) (count : Nat) : Sampling Stream (List Float) := fun s =>
  match s with
  | tape t =>
    let (xs, t) := (t.record c).take count
    (.ok xs, tape t)
  | seeded g =>
    if c.primitive == .uniform then
      let (xs, g) := g.take count
      (.ok xs, seeded g)
    else (.error (.fault .refusedArgument), s)

/-- The next uniform number, as it is asked for from outside a law. -/
def nextUniform (s : Stream) : Float × Stream :=
  match s with
  | tape t =>
    let (xs, t) := (t.record ⟨.uniform, [], none⟩).take 1
    (xs.headD 0.0, tape t)
  | seeded g =>
    let (xs, g) := g.take 1
    (xs.headD 0.0, seeded g)

/-- The number of children given out so far. -/
def spawned : Stream → Nat
  | tape t => t.spawned
  | seeded g => g.seeds.spawned

/-- The child with a number. -/
def child (s : Stream) (k : Nat) : Stream :=
  match s with
  | tape t => tape (t.child k)
  | seeded g => seeded (Seeded.ofSeeds (g.seeds.child k))

/-- The stream after giving out `n` more children. -/
def skipChildren (s : Stream) (n : Nat) : Stream :=
  match s with
  | tape t => tape { t with spawned := t.spawned + n }
  | seeded g => seeded { g with seeds := { g.seeds with spawned := g.seeds.spawned + n } }

/-- The next `n` children, and the stream that has given them out. -/
def spawn (s : Stream) (n : Nat) : List Stream × Stream :=
  ((List.range n).map fun i => s.child (s.spawned + i), s.skipChildren n)

/-- The calls on record; a seeded generator keeps none. -/
def calls : Stream → List Call
  | tape t => t.calls
  | seeded _ => []

/-! ## Children -/

/-- **A child depends only on its number**, not on how many are given out with it. -/
theorem getElem?_spawn {s : Stream} {n i : Nat} (h : i < n) :
    (s.spawn n).1[i]? = some (s.child (s.spawned + i)) := by
  simp [spawn, h]

@[simp] theorem spawned_skipChildren (s : Stream) (n : Nat) :
    (s.skipChildren n).spawned = s.spawned + n := by
  cases s <;> rfl

@[simp] theorem calls_skipChildren (s : Stream) (n : Nat) : (s.skipChildren n).calls = s.calls := by
  cases s <;> rfl

/-- **Giving out children draws nothing:** every later call is answered as if they had not
    been given out. -/
theorem call_skipChildren (s : Stream) (n : Nat) (c : Call) (count : Nat) :
    (call c count).outcome (s.skipChildren n)
      = (((call c count).outcome s).1, ((call c count).outcome s).2.skipChildren n) := by
  cases s with
  | tape t => rfl
  | seeded g =>
    by_cases hc : c.primitive == .uniform
    · simp only [call, Sampling.outcome, skipChildren, hc, if_true, Seeded.take_withSeeds,
        Seeded.seeds_take]
    · simp only [call, Sampling.outcome, skipChildren, hc, if_false, Bool.false_eq_true]

end Stream

end Gibbs
