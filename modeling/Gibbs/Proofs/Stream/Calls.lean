/-
  Computations that only call their stream.

  Draws are made of primitive calls and of computations on values.  A call moves a stream, but
  it gives out no child and changes none of those that are left, so whatever is made of calls
  leaves the children alone.

  * `Stream.SameChildren`: streams that differ in their place only;
  * `Sampling.Calls`: computations made of calls, with what they may fail with;
  * `Calls.sameChildren`, `Calls.holds_of_error`: what they leave of a stream and how they fail;
  * `Family.calls_draw`: a draw is made of calls and fails with a fault, or for a family without
    a law;
  * `Instruction.draws_runAll`, `CompiledStep.calls_sweep`: the same for the instructions of a
    sweep, and for the sweep.
-/
import Gibbs.Model.Compile
import Gibbs.Proofs.Except

namespace Gibbs

/-! ## Children -/

/-- Streams with the same children, of which as many are given out. -/
structure Stream.SameChildren (g h : Stream) : Prop where
  spawned : h.spawned = g.spawned
  child : ∀ k, h.child k = g.child k

namespace Stream

theorem SameChildren.refl (g : Stream) : SameChildren g g := ⟨rfl, fun _ => rfl⟩

theorem SameChildren.trans {g h i : Stream} (hgh : SameChildren g h) (hhi : SameChildren h i) :
    SameChildren g i :=
  ⟨hhi.spawned.trans hgh.spawned, fun k => (hhi.child k).trans (hgh.child k)⟩

/-- **A call** leaves the children alone. -/
theorem sameChildren_call (c : Call) (count : Nat) (g : Stream) :
    SameChildren g ((call c count).outcome g).2 := by
  cases g with
  | tape t => exact ⟨rfl, fun _ => rfl⟩
  | seeded g =>
    simp only [call, Sampling.outcome]
    split
    · refine ⟨?_, fun k => ?_⟩
      · simp only [spawned, g.seeds_take count]
      · simp only [child, g.seeds_take count]
    · exact .refl _

/-- Giving out children does not change the ones that are left. -/
@[simp] theorem child_skipChildren (g : Stream) (n k : Nat) :
    (g.skipChildren n).child k = g.child k := by
  cases g <;> rfl

end Stream

/-! ## Calls -/

namespace Sampling

/-- A computation that is made of primitive calls and of computations on values; those may fail
    with certain errors. -/
inductive Calls (P : Error → Prop) : {α : Type} → Sampling Stream α → Prop
  | pure {α : Type} (a : α) : Calls P (Pure.pure a)
  | throw {α : Type} {e : Error} (h : P e) : Calls P (throw e : Sampling Stream α)
  | call (c : Call) (count : Nat) : Calls P (Stream.call c count)
  | bind {α β : Type} {x : Sampling Stream α} {f : α → Sampling Stream β} (hx : Calls P x)
      (hf : ∀ a, Calls P (f a)) : Calls P (x >>= f)

namespace Calls

variable {P : Error → Prop} {α β : Type}

theorem ofExcept {x : Except Error α} (h : ∀ e, x = .error e → P e) :
    Calls P (ofExcept x) := by
  cases x with
  | error e => exact .throw (h e rfl)
  | ok a => exact .pure a

theorem ite {c : Prop} [Decidable c] {x y : Sampling Stream α} (hx : Calls P x) (hy : Calls P y) :
    Calls P (if c then x else y) := by
  split
  · exact hx
  · exact hy

theorem mapM {f : α → Sampling Stream β} (hf : ∀ a, Calls P (f a)) :
    ∀ l : List α, Calls P (l.mapM f)
  | [] => .pure []
  | a :: l => by
    rw [List.mapM_cons]
    exact (hf a).bind fun b => (mapM hf l).bind fun bs => .pure (b :: bs)

/-- After a failure nothing else is done. -/
theorem throw_bind {e : Error} (h : P e) (f : α → Sampling Stream β) :
    Calls P ((MonadExcept.throw e : Sampling Stream α) >>= f) := .throw h

theorem mono {Q : Error → Prop} (hPQ : ∀ e, P e → Q e) {x : Sampling Stream α} (h : Calls P x) :
    Calls Q x := by
  induction h with
  | pure a => exact .pure a
  | throw he => exact .throw (hPQ _ he)
  | call c count => exact .call c count
  | bind _ _ ihx ihf => exact .bind ihx ihf

/-- **What is made of calls** leaves the children of a stream alone, also when it fails. -/
theorem sameChildren {x : Sampling Stream α} (h : Calls P x) (g : Stream) :
    Stream.SameChildren g (x.outcome g).2 := by
  induction h generalizing g with
  | pure a => exact .refl g
  | throw _ => exact .refl g
  | call c count => exact Stream.sameChildren_call c count g
  | @bind _ _ x f _ _ ihx ihf =>
    rw [outcome_bind]
    have hx := ihx g
    rcases hg : x.outcome g with ⟨e | a, g'⟩
    · rw [hg] at hx
      exact hx
    · rw [hg] at hx
      exact hx.trans (ihf a g')

/-- **What is made of calls** fails as calls do, or as the computations on values may. -/
theorem holds_of_error (hcall : P (.fault .refusedArgument)) {x : Sampling Stream α}
    (h : Calls P x) {g g' : Stream} {e : Error} (he : x.outcome g = (.error e, g')) : P e := by
  induction h generalizing g with
  | pure a => cases he
  | throw h => cases he; exact h
  | call c count =>
    cases g with
    | tape t => cases he
    | seeded g =>
      simp only [Stream.call, outcome] at he
      split at he
      · cases he
      · cases he; exact hcall
  | @bind _ _ x f _ _ ihx ihf =>
    rw [outcome_bind] at he
    rcases hg : x.outcome g with ⟨e' | a, g₁⟩
    · rw [hg] at he
      cases he
      exact ihx hg
    · rw [hg] at he
      exact ihf a he

end Calls

end Sampling

/-! ## Draws -/

/-- Errors of draws: faults, and the one of a family without a law. -/
def Error.isDrawing : Error → Bool
  | fault _ => true
  | familyIncomplete => true
  | _ => false

/-- A computation that is made of calls and fails as draws do. -/
abbrev Sampling.Draws {α : Type} (x : Sampling Stream α) : Prop :=
  x.Calls fun e => e.isDrawing = true

open Sampling

theorem Error.isDrawing_of_draws {α : Type} {x : Sampling Stream α} (h : x.Draws)
    {g g' : Stream} {e : Error} (he : x.outcome g = (.error e, g')) : e.isDrawing = true :=
  Calls.holds_of_error (P := fun e => e.isDrawing = true) rfl h he

theorem Univariate.draws_orFail {α : Type} (r : Except Fault α) :
    (Univariate.orFail r : Sampling Stream α).Draws := by
  refine .ofExcept fun e he => ?_
  cases r with
  | error f => cases he; rfl
  | ok a => cases he

open Univariate in
theorem Univariate.calls_draw (u : Univariate) (args : Arguments) : (u.draw args).Draws := by
  unfold draw
  refine (draws_orFail _).bind fun (shapes, loc, scale) => ?_
  refine (draws_orFail _).bind fun full => ?_
  refine (draws_orFail _).bind fun ps => ?_
  refine (draws_orFail _).bind fun scales => ?_
  refine Calls.ite (Calls.throw_bind ?_ _) (Calls.ite ?_ ?_)
  · exact rfl
  · exact (draws_orFail _).bind fun locs => .pure _
  · refine (Calls.call _ _).bind fun ts => ?_
    refine (draws_orFail _).bind fun locs => ?_
    refine Calls.ite ?_ (.pure _)
    dsimp only
    split
    · exact (draws_orFail _).bind fun i => .pure _
    · exact .pure _

open Univariate in
theorem Dirichlet.calls_draw (args : Arguments) : (Dirichlet.draw args).Draws :=
  (draws_orFail _).bind fun _ => (Calls.call _ _).bind fun _ => .pure _

open Univariate in
theorem MultivariateNormal.calls_draw (args : Arguments) : (MultivariateNormal.draw args).Draws :=
  (draws_orFail _).bind fun _ => (draws_orFail _).bind fun _ => (Calls.call _ _).bind
    fun _ => .pure _

open Univariate in
theorem Wishart.calls_draw (args : Arguments) : (Wishart.draw args).Draws :=
  (draws_orFail _).bind fun _ => (Calls.call _ _).bind fun _ =>
    (Calls.mapM (fun _ => (Calls.call _ _).bind fun _ => .pure _) _).bind fun _ => .pure _

open Univariate in
theorem InverseWishart.calls_draw (args : Arguments) : (InverseWishart.draw args).Draws := by
  refine (draws_orFail _).bind fun p => ?_
  refine (Calls.call _ _).bind fun normals => ?_
  refine (Calls.call _ _).bind fun squares => ?_
  exact Calls.ite (.pure _) (.pure _)

open Univariate in
theorem Multinomial.calls_draw (args : Arguments) : (Multinomial.draw args).Draws :=
  (draws_orFail _).bind fun (_, _) => (Calls.call _ _).bind fun _ =>
    (draws_orFail _).bind fun _ => .pure _

/-- **Draws of a law** are made of calls. -/
theorem Law.calls_draw (law : Law) (args : Arguments) : (law.draw args).Draws := by
  cases law with
  | univariate u => exact u.calls_draw args
  | dirichlet => exact Dirichlet.calls_draw args
  | multivariateNormal => exact MultivariateNormal.calls_draw args
  | wishart => exact Wishart.calls_draw args
  | inverseWishart => exact InverseWishart.calls_draw args
  | multinomial => exact Multinomial.calls_draw args

/-- **Draws of a family** are made of calls. -/
theorem Family.calls_draw (f : Family) (values : List (String × Value)) :
    (f.draw values).Draws := by
  unfold draw
  split
  · exact .throw rfl
  · exact .throw rfl
  · next law args _ _ => exact law.calls_draw args

/-! ## Sweeps -/

theorem Error.isDrawing_of_orError {α : Type} {r : Except Fault α} {e : Error}
    (h : orError r = .error e) : e.isDrawing = true := by
  cases r with
  | error f => cases h; rfl
  | ok a => cases h

/-- **Compiled code** fails with a fault. -/
theorem Code.isDrawing_of_eval {f : Frame} {c : Code} {e : Error} (h : c.eval f = .error e) :
    e.isDrawing = true := by
  induction c with
  | read p =>
    cases p <;> rw [eval, Frame.read] at h <;> split at h <;> cases h <;> rfl
  | literal v => cases h
  | unary op c ih =>
    rcases bind_eq_error.1 h with h | ⟨v, -, h⟩
    · exact ih h
    · exact Error.isDrawing_of_orError h
  | binary op c d ihc ihd =>
    rcases bind_eq_error.1 h with h | ⟨v, -, h⟩
    · exact ihc h
    · rcases bind_eq_error.1 h with h | ⟨w, -, h⟩
      · exact ihd h
      · exact Error.isDrawing_of_orError h

theorem Instruction.draws_run (f : Frame) (i : Instruction) : (i.run Family.draw f).Draws := by
  cases i with
  | draw n family params =>
    refine (Calls.ofExcept fun e he => ?_).bind fun values => ?_
    · obtain ⟨⟨k, c⟩, -, he⟩ := mapM_eq_error he
      rcases bind_eq_error.1 he with he | ⟨v, -, he⟩
      · exact Code.isDrawing_of_eval he
      · cases he
    · exact (family.calls_draw values).bind fun v => .pure _
  | compute n c =>
    exact (Calls.ofExcept fun e he => Code.isDrawing_of_eval he).bind fun v => .pure _

/-- **The instructions of a sweep** fail as draws do. -/
theorem Instruction.draws_runAll : ∀ (f : Frame) (is : List Instruction),
    (runAll Family.draw f is).Draws
  | f, [] => .pure f
  | f, i :: is => (i.draws_run f).bind fun g => draws_runAll g is

/-- **A compiled sweep** is made of calls. -/
theorem CompiledStep.calls_sweep (c : CompiledStep) (s : State) (data : List Value) :
    (c.sweep s data).Calls fun _ => True := by
  unfold sweep run
  refine .ite (.throw trivial) (.ite (.throw trivial) ?_)
  exact ((Instruction.draws_runAll _ _).mono fun _ _ => trivial).bind fun f => .pure _

end Gibbs
