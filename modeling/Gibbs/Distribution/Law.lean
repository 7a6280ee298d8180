/-
  The laws that distributions are drawn from.

  * `Law.draw`: one draw for given arguments;
  * `Law.logDensities`: the log density, or log mass, at every position of a point.
-/
import Gibbs.Distribution.Multivariate

namespace Gibbs

/-- A law of numbers, vectors or matrices. -/
inductive Law where
  | univariate (u : Univariate)
  | dirichlet
  | multivariateNormal
  | wishart
  | inverseWishart
  | multinomial

namespace Law

/-- One draw. -/
def draw (args : Arguments) : Law → Sampling Stream Value
  | univariate u => u.draw args
  | dirichlet => Dirichlet.draw args
  | multivariateNormal => MultivariateNormal.draw args
  | wishart => Wishart.draw args
  | inverseWishart => InverseWishart.draw args
  | multinomial => Multinomial.draw args

/-- The log density at every position of a point. -/
def logDensities (x : Value) (args : Arguments) : Law → Except Fault (Grid Float)
  | univariate u => u.logDensities x args
  | dirichlet => Dirichlet.logDensities x args
  | multivariateNormal => MultivariateNormal.logDensities x args
  | wishart => Wishart.logDensities x args
  | inverseWishart => InverseWishart.logDensities x args
  | multinomial => Multinomial.logDensities x args

end Law

end Gibbs
