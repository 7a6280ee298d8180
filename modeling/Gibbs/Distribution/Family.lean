/-
  Families of distributions: how named parameters become arguments of a law.

  A family lists its parameters in the order of their declaration.  Each one is passed to
  the law under a keyword of its own, as it is, as its exponential or as its reciprocal; the
  bounds of an interval are passed as its start and its width.

  * `Family.arguments`: values of parameters as arguments of the law;
  * `Family.normal`, …, `Family.multinomial`: the sixteen families;
  * `Family.all`: their list, by which a family is found from its name.
-/
import Gibbs.Distribution.Law

namespace Gibbs

/-- What a parameter undergoes on its way to the law. -/
inductive Conversion where
  | none
  | exponential
  | reciprocal
deriving DecidableEq, Repr

/-- The converted value of a parameter. -/
def Conversion.apply (v : Value) : Conversion → Except Fault Value
  | .none => .ok v
  | .exponential => Element.exp.apply v
  | .reciprocal => Arith.div.apply (.int 1) v

/-- A parameter of a family. -/
structure Parameter where
  name : String
  /-- the keyword of the law's argument -/
  keyword : String
  conversion : Conversion
  /-- whether a constant must be positive -/
  positive : Bool
deriving DecidableEq, Repr

/-- How the parameters of a family are passed to its law. -/
inductive Passing where
  /-- each under its keyword -/
  | each
  /-- two bounds, as a start and a width -/
  | bounds (lower upper : String)
deriving DecidableEq, Repr

/-- A family of distributions. -/
structure Family where
  name : String
  parameters : List Parameter
  /-- the law, unless the family is incomplete -/
  law? : Option Law
  discrete : Bool
  passing : Passing
  /-- whether the parameters are part of the family's signature, so that a call with other
      ones is refused before the family sees it -/
  signed : Bool

namespace Family

/-- The names of the parameters. -/
def names (f : Family) : List String := f.parameters.map Parameter.name

/-- The parameter with a name. -/
def parameter? (f : Family) (name : String) : Option Parameter :=
  f.parameters.find? fun p => p.name == name

/-- One value under the keyword of its parameter. -/
def argument (f : Family) (entry : String × Value) : Except Fault (String × Value) :=
  match f.parameter? entry.1 with
  | none => .error .missingKey
  | some p => do return (p.keyword, ← p.conversion.apply entry.2)

/-- The value given to a parameter. -/
def given (values : List (String × Value)) (name : String) : Except Fault Value :=
  match values.lookup name with
  | some v => .ok v
  | none => .error .missingKey

/-- Values of parameters as arguments of the law, in the order of the values. -/
def arguments (f : Family) (values : List (String × Value)) : Except Fault Arguments :=
  match f.passing with
  | .each => values.mapM f.argument
  | .bounds lower upper => do
    let a ← given values lower
    let b ← given values upper
    return [("loc", a), ("scale", ← Arith.sub.apply b a)]

/-! ## The families -/

/-- A family of a law of one number, from its name and its parameters. -/
def ofUnivariate (name : String) (u : Univariate) (parameters : List Parameter) : Family :=
  ⟨name, parameters, some (.univariate u), u.discrete, .each, true⟩

/-- A family of a law of vectors or matrices. -/
def ofLaw (name : String) (law : Law) (parameters : List Parameter) : Family :=
  ⟨name, parameters, some law, false, .each, true⟩

def normal : Family :=
  ofUnivariate "Normal" .normal [⟨"mu", "loc", .none, false⟩, ⟨"sigma", "scale", .none, true⟩]

def halfNormal : Family :=
  ofUnivariate "HalfNormal" .halfNormal [⟨"sigma", "scale", .none, true⟩]

def logNormal : Family :=
  ofUnivariate "LogNormal" .logNormal
    [⟨"mu", "scale", .exponential, false⟩, ⟨"sigma", "s", .none, true⟩]

def beta : Family :=
  ofUnivariate "Beta" .beta [⟨"alpha", "a", .none, true⟩, ⟨"beta", "b", .none, true⟩]

/-- The second parameter is a rate, the law's is a scale. -/
def gamma : Family :=
  ofUnivariate "Gamma" .gamma
    [⟨"alpha", "a", .none, true⟩, ⟨"beta", "scale", .reciprocal, true⟩]

def inverseGamma : Family :=
  ofUnivariate "InverseGamma" .inverseGamma
    [⟨"alpha", "a", .none, true⟩, ⟨"beta", "scale", .none, true⟩]

/-- The parameter is a rate, the law's is a scale. -/
def exponential : Family :=
  ofUnivariate "Exponential" .exponential [⟨"beta", "scale", .reciprocal, true⟩]

def uniform : Family :=
  { ofUnivariate "Uniform" .uniform
      [⟨"lower", "loc", .none, false⟩, ⟨"upper", "scale", .none, false⟩] with
    passing := .bounds "lower" "upper" }

def dirichlet : Family := ofLaw "Dirichlet" .dirichlet [⟨"alpha", "alpha", .none, true⟩]

def multivariateNormal : Family :=
  ofLaw "MultivariateNormal" .multivariateNormal
    [⟨"mu", "mean", .none, false⟩, ⟨"sigma", "cov", .none, false⟩]

def wishart : Family :=
  ofLaw "Wishart" .wishart [⟨"nu", "df", .none, true⟩, ⟨"sigma", "scale", .none, false⟩]

def inverseWishart : Family :=
  ofLaw "InverseWishart" .inverseWishart
    [⟨"nu", "df", .none, true⟩, ⟨"sigma", "scale", .none, false⟩]

def bernoulli : Family :=
  ofUnivariate "Bernoulli" .bernoulli [⟨"theta", "p", .none, false⟩]

def binomial : Family :=
  ofUnivariate "Binomial" .binomial [⟨"N", "n", .none, false⟩, ⟨"theta", "p", .none, false⟩]

def poisson : Family :=
  ofUnivariate "Poisson" .poisson [⟨"lambda_", "mu", .none, true⟩]

def multinomial : Family :=
  { ofLaw "Multinomial" .multinomial
      [⟨"N", "n", .none, false⟩, ⟨"theta", "p", .none, false⟩] with discrete := true }

/-- All families. -/
def all : List Family :=
  [normal, halfNormal, logNormal, beta, gamma, inverseGamma, exponential, uniform, dirichlet,
    multivariateNormal, wishart, inverseWishart, bernoulli, binomial, poisson, multinomial]

/-- The family with a name. -/
def ofName? (name : String) : Option Family := all.find? fun f => f.name == name

end Family

end Gibbs
