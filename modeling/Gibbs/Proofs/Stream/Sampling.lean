/-
  Computations that draw, when they succeed.

  * `outcome_bind_eq_ok`: two computations one after the other succeed if both do;
  * `Sampling.Gives`, `Gives.bind`: what holds of every result of a computation.
-/
import Gibbs.Stream.Basic

namespace Gibbs.Sampling

variable {σ α β : Type}

/-- **One computation after the other** succeeds exactly if both do. -/
theorem outcome_bind_eq_ok {x : Sampling σ α} {f : α → Sampling σ β} {b : β} {r r' : σ} :
    (x >>= f).outcome r = (.ok b, r') ↔
      ∃ a r₁, x.outcome r = (.ok a, r₁) ∧ (f a).outcome r₁ = (.ok b, r') := by
  rw [outcome_bind]
  rcases x.outcome r with ⟨e | a, r₁⟩
  · exact iff_of_false (by rintro ⟨⟩) (by rintro ⟨_, _, ⟨⟩, _⟩)
  · constructor
    · intro h
      exact ⟨a, r₁, rfl, h⟩
    · rintro ⟨_, _, ⟨⟩, h⟩
      exact h

theorem outcome_ofExcept_eq_ok {x : Except Error α} {a : α} {r r' : σ} :
    (ofExcept x).outcome r = (.ok a, r') ↔ x = .ok a ∧ r = r' := by
  rw [outcome_ofExcept, Prod.mk.injEq]

/-- Every result of a computation has a property. -/
def Gives (P : α → Prop) (x : Sampling σ α) : Prop :=
  ∀ r a r', x.outcome r = (.ok a, r') → P a

variable {P : α → Prop} {Q : β → Prop}

theorem Gives.pure {a : α} (h : P a) : Gives P (Pure.pure a : Sampling σ α) := by
  rintro r _ r' ⟨⟩
  exact h

theorem Gives.trivial (x : Sampling σ α) : Gives (fun _ => True) x := fun _ _ _ _ => True.intro

theorem Gives.throw (e : Error) : Gives P (throw e : Sampling σ α) := by
  rintro r a r' ⟨⟩

theorem Gives.ite {c : Prop} [Decidable c] {x y : Sampling σ α} (hx : Gives P x)
    (hy : Gives P y) : Gives P (if c then x else y) := by
  split
  · exact hx
  · exact hy

theorem Gives.bind {x : Sampling σ α} {f : α → Sampling σ β} (hx : Gives P x)
    (hf : ∀ a, P a → Gives Q (f a)) : Gives Q (x >>= f) := by
  intro r b r' h
  obtain ⟨a, r₁, ha, hb⟩ := outcome_bind_eq_ok.1 h
  exact hf a (hx r a r₁ ha) r₁ b r' hb

end Gibbs.Sampling
