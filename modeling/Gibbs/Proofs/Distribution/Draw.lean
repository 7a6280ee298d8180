/-
  What is drawn: single numbers and arrays.

  Whatever the law and its arguments, a draw is a number, a cell or an array, and can be made
  an array.

  * `Value.isNumeric`, `exists_toTensor`: single numbers and arrays;
  * `Law.gives_numeric`, `Family.gives_numeric`: draws of a law and of a family.
-/
import Gibbs.Distribution.Basic
import Gibbs.Proofs.Stream.Sampling

namespace Gibbs

/-! ## Numbers and arrays -/

namespace Value

/-- A single number or an array. -/
def isNumeric : Value → Bool
  | .plain (.bool _) | .plain (.int _) | .plain (.float _) => true
  | .cell _ => true
  | .array _ => true
  | _ => false

/-- Numbers and arrays can be made arrays. -/
theorem exists_toTensor {v : Value} (h : v.isNumeric = true) : ∃ t, v.toTensor = .ok t := by
  unfold isNumeric at h
  split at h
  · exact ⟨_, rfl⟩
  · exact ⟨_, rfl⟩
  · exact ⟨_, rfl⟩
  · exact ⟨_, rfl⟩
  · exact ⟨_, rfl⟩
  · cases h

theorem isNumeric_ofFloats (g : Grid Float) : (ofTensor (.ofFloats g)).isNumeric = true := by
  unfold ofTensor
  split <;> rfl

end Value

/-! ## Draws -/

open Sampling

theorem Univariate.gives_numeric (u : Univariate) (args : Arguments) :
    (u.draw args).Gives fun v => v.isNumeric = true := by
  unfold draw
  refine (Gives.trivial _).bind fun (shapes, loc, scale) _ => ?_
  refine (Gives.trivial _).bind fun full _ => ?_
  refine (Gives.trivial _).bind fun ps _ => ?_
  refine (Gives.trivial _).bind fun scales _ => ?_
  refine Gives.ite ((Gives.throw (P := fun _ => False) _).bind fun _ h => h.elim) ?_
  refine Gives.ite ?_ ?_
  · exact (Gives.trivial _).bind fun locs _ => .pure (Value.isNumeric_ofFloats _)
  · refine (Gives.trivial _).bind fun ts _ => ?_
    refine (Gives.trivial _).bind fun locs _ => ?_
    refine Gives.ite ?_ (.pure (Value.isNumeric_ofFloats _))
    dsimp only
    split
    · exact (Gives.trivial _).bind fun i _ => .pure rfl
    · exact .pure rfl

theorem Dirichlet.gives_numeric (args : Arguments) :
    (Dirichlet.draw args).Gives fun v => v.isNumeric = true :=
  (Gives.trivial _).bind fun _ _ => (Gives.trivial _).bind fun _ _ => .pure rfl

theorem MultivariateNormal.gives_numeric (args : Arguments) :
    (MultivariateNormal.draw args).Gives fun v => v.isNumeric = true :=
  (Gives.trivial _).bind fun _ _ => (Gives.trivial _).bind fun _ _ => (Gives.trivial _).bind
    fun _ _ => .pure (Value.isNumeric_ofFloats _)

theorem Wishart.isNumeric_ofMatrix (a : Matrix) : (Wishart.ofMatrix a).isNumeric = true := by
  unfold Wishart.ofMatrix
  split <;> rfl

theorem Wishart.gives_numeric (args : Arguments) :
    (Wishart.draw args).Gives fun v => v.isNumeric = true :=
  (Gives.trivial _).bind fun _ _ => (Gives.trivial _).bind fun _ _ => (Gives.trivial _).bind
    fun _ _ => .pure (isNumeric_ofMatrix _)

theorem InverseWishart.gives_numeric (args : Arguments) :
    (InverseWishart.draw args).Gives fun v => v.isNumeric = true := by
  refine (Gives.trivial _).bind fun p _ => ?_
  refine (Gives.trivial _).bind fun normals _ => ?_
  refine (Gives.trivial _).bind fun squares _ => ?_
  exact Gives.ite (.pure rfl) (.pure (Wishart.isNumeric_ofMatrix _))

theorem Multinomial.gives_numeric (args : Arguments) :
    (Multinomial.draw args).Gives fun v => v.isNumeric = true := by
  refine (Gives.trivial _).bind fun (n, ps) _ => ?_
  exact (Gives.trivial _).bind fun _ _ => (Gives.trivial _).bind fun _ _ => .pure rfl

/-- **Draws of a law** are numbers and arrays. -/
theorem Law.gives_numeric (law : Law) (args : Arguments) :
    (law.draw args).Gives fun v => v.isNumeric = true := by
  cases law with
  | univariate u => exact u.gives_numeric args
  | dirichlet => exact Dirichlet.gives_numeric args
  | multivariateNormal => exact MultivariateNormal.gives_numeric args
  | wishart => exact Wishart.gives_numeric args
  | inverseWishart => exact InverseWishart.gives_numeric args
  | multinomial => exact Multinomial.gives_numeric args

/-- **Draws of a family** are numbers and arrays, whatever the values of its parameters. -/
theorem Family.gives_numeric (f : Family) (values : List (String × Value)) :
    (f.draw values).Gives fun v => v.isNumeric = true := by
  unfold draw
  split
  · exact .throw _
  · exact .throw _
  · next law args _ _ => exact law.gives_numeric args

end Gibbs
