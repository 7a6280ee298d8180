/-
  Two computations side by side.

  Computations are coupled if they fail with the same error or give related results, and
  leave the same randomness in either case.  Two chains with coupled sweeps that ask only
  for the number of draws make as many sweeps and keep related states.

  * `Sampling.Coupled`, `Coupled.bind`: coupled computations, one after the other;
  * `ChainEnd.Coupled`: coupled chains;
  * `Chain.run_coupled`, `Rule.run_count_coupled`: chains with coupled sweeps.
-/
import Mathlib.Data.List.Forall2
import Gibbs.Chain.Rule

namespace Gibbs

variable {σ α β γ δ : Type}

/-! ## Computations -/

/-- The same error or related results, and the same randomness left. -/
inductive CoupledOutcomes (R : α → β → Prop) :
    Except Error α × σ → Except Error β × σ → Prop
  | error (e : Error) (r : σ) : CoupledOutcomes R (.error e, r) (.error e, r)
  | ok {a : α} {b : β} (h : R a b) (r : σ) : CoupledOutcomes R (.ok a, r) (.ok b, r)

theorem CoupledOutcomes.cases {R : α → β → Prop} {o : Except Error α × σ}
    {o' : Except Error β × σ} (h : CoupledOutcomes R o o') :
    (∃ e r, o = (.error e, r) ∧ o' = (.error e, r)) ∨
    ∃ a b r, R a b ∧ o = (.ok a, r) ∧ o' = (.ok b, r) := by
  cases h with
  | error e r => exact .inl ⟨e, r, rfl, rfl⟩
  | @ok a b h r => exact .inr ⟨a, b, r, h, rfl, rfl⟩

namespace Sampling

/-- Computations that are coupled from every randomness on. -/
def Coupled (R : α → β → Prop) (x : Sampling σ α) (y : Sampling σ β) : Prop :=
  ∀ r, CoupledOutcomes R (x.outcome r) (y.outcome r)

variable {R : α → β → Prop} {Q : γ → δ → Prop}

theorem Coupled.pure {a : α} {b : β} (h : R a b) :
    Coupled R (Pure.pure a : Sampling σ α) (Pure.pure b) :=
  fun r => .ok h r

theorem Coupled.refl (x : Sampling σ α) : Coupled Eq x x := by
  intro r
  rcases x.outcome r with ⟨e | a, r'⟩
  · exact .error e r'
  · exact .ok rfl r'

/-- **One computation after the other.** -/
theorem Coupled.bind {x : Sampling σ α} {y : Sampling σ β} {f : α → Sampling σ γ}
    {g : β → Sampling σ δ} (hx : Coupled R x y) (hf : ∀ a b, R a b → Coupled Q (f a) (g b)) :
    Coupled Q (x >>= f) (y >>= g) := by
  intro r
  rw [outcome_bind, outcome_bind]
  rcases (hx r).cases with ⟨e, r', ho, ho'⟩ | ⟨a, b, r', h, ho, ho'⟩
  · rw [ho, ho']; exact .error e r'
  · rw [ho, ho']; exact hf a b h r'

theorem Coupled.of_ok {x : Sampling σ α} {y : Sampling σ β} (h : Coupled R x y) {r r' : σ} {a : α}
    (hx : x.outcome r = (.ok a, r')) : ∃ b, R a b ∧ y.outcome r = (.ok b, r') := by
  rcases (h r).cases with ⟨e, r₁, ho, -⟩ | ⟨a', b, r₁, hab, ho, ho'⟩
  · rw [ho] at hx; cases hx
  · rw [ho] at hx; cases hx
    exact ⟨b, hab, ho'⟩

end Sampling

/-! ## Chains -/

/-- The same error or related results, or both still running. -/
inductive Outcome.Coupled (R : α → β → Prop) : Outcome α → Outcome β → Prop
  | finished {a : α} {b : β} (h : R a b) : Coupled R (.finished a) (.finished b)
  | failed (e : Error) : Coupled R (.failed e) (.failed e)
  | running : Coupled R .running .running

/-- Chains that keep related states, one for one, or fail with the same error, after as many
    sweeps and with the same randomness left. -/
structure ChainEnd.Coupled (R : State → State → Prop) (e e' : ChainEnd σ) : Prop where
  outcome : Outcome.Coupled (List.Forall₂ R) e.outcome e'.outcome
  left : e.left = e'.left
  sweeps : e.sweeps = e'.sweeps

variable {R Q : State → State → Prop} {step : State → Sampling σ State}

/-- **Chains with coupled sweeps.**  States related by `R` are followed by states related by
    `Q`, which are related by `R` in turn. -/
theorem Chain.run_coupled (hstep : ∀ s t, R s t → (step s).Coupled Q (step t))
    (hQ : ∀ s t, Q s t → R s t) (sched : Schedule) {isDone : Question σ}
    (hdone : ∀ r ds ds' s t k, ds.length = ds'.length → isDone r ds s k = isDone r ds' t k) :
    ∀ (fuel done : Nat) {ds ds' : List State} {s t : State} (r : σ),
      List.Forall₂ Q ds ds' → R s t →
      (run step sched isDone fuel done ds s r).Coupled Q (run step sched isDone fuel done ds' t r)
  | 0, _, _, _, _, _, _, _, _ => ⟨.running, rfl, rfl⟩
  | fuel + 1, done, ds, ds', s, t, r, hds, hst => by
    unfold run
    rcases (hstep s t hst r).cases with ⟨e, r', ho, ho'⟩ | ⟨s', t', r', h, ho, ho'⟩
    · rw [ho, ho']
      exact ⟨.failed e, rfl, rfl⟩
    · have hkeep : List.Forall₂ Q (keep sched (done + 1) ds s') (keep sched (done + 1) ds' t') := by
        unfold keep
        split
        · exact List.rel_append hds (.cons h .nil)
        · exact hds
      rw [ho, ho']
      simp only [hdone r' _ _ s' t' (done + 1) hkeep.length_eq]
      cases isDone r' (keep sched (done + 1) ds' t') t' (done + 1) with
      | error e => exact ⟨.failed e, rfl, rfl⟩
      | ok b =>
        cases b with
        | true => exact ⟨.finished hkeep, rfl, rfl⟩
        | false => exact run_coupled hstep hQ sched hdone fuel (done + 1) r' hkeep (hQ s' t' h)

/-- **Chains asked for a number of draws**, with coupled sweeps. -/
theorem Rule.run_count_coupled (hstep : ∀ s t, R s t → (step s).Coupled Q (step t))
    (hQ : ∀ s t, Q s t → R s t) (n : Value) (sched : Schedule) {s t : State} (hst : R s t)
    (r : σ) : ((count n).run step sched s r).Coupled Q ((count n).run step sched t r) := by
  unfold Rule.run
  dsimp only
  split
  · next f _ => exact ⟨.failed f, rfl, rfl⟩
  · split
    · exact ⟨.finished .nil, rfl, rfl⟩
    · refine Chain.run_coupled hstep hQ sched ?_ _ 0 r .nil hst
      intro _ ds ds' _ _ _ hlen
      rw [countReached, countReached, hlen]

end Gibbs
