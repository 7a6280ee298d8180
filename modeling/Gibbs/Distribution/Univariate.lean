/-
  Laws of one number.

  A law has shape parameters, a location and a scale.  It is drawn from by one primitive
  call whose numbers are transformed, scaled and shifted; its log density is that of the
  standard law at the standardised point, less the logarithm of the scale.  Parameters are
  stretched to a common shape, and leading axes of extent one of that shape are dropped.

  * `Univariate`: the standard law;
  * `Univariate.logDensities`: the log density at every position;
  * `Univariate.draw`: one draw; when every scale is zero it is the location, and no
    primitive is called.
-/
import Gibbs.Special.IncompleteGamma
import Gibbs.Stream.Basic

namespace Gibbs

/-- Values given to the parameters of a law, by keyword. -/
abbrev Arguments := List (String × Value)

/-- A value as numbers for a comparison: texts have no order with numbers, and nothing is no
    number. -/
def Value.toNumbers (v : Value) : Except Fault (Grid Float) := do
  let t ← v.toTensor
  match t.kind with
  | .text _ => throw .textOperand
  | .object => (t.cellsAs .object).mapM fun p => match p.number? with
    | some n => n.toFloat
    | none => .error .wrongType
  | _ => return t.cellsAs (.float .double)

/-- A standard law of one number.  Shape parameters come in the order of `shapes`. -/
structure Univariate where
  shapes : List String
  discrete : Bool
  /-- the shape parameters in the domain of the law -/
  admits : List Float → Bool
  /-- the points that carry density or mass -/
  supports : List Float → Float → Bool
  logDensity : List Float → Float → Float
  primitive : Primitive
  /-- the arguments of the primitive call, from the lists of shape parameters -/
  callArgs : List (List Float) → List (List Float)
  /-- a draw of the standard law from a number of the primitive -/
  transform : List Float → Float → Float

/-- Whether a double is a whole number or infinite. -/
def isWhole (x : Float) : Bool := x.floor == x

/-- The logarithm of the binomial probability of `k` among `n`. -/
def logBinomial (n p k : Float) : Float :=
  let k := k.floor
  let m := n - k
  let choices := Special.logGamma (n + 1.0)
    - (Special.logGamma (k + 1.0) + Special.logGamma (m + 1.0))
  choices + Special.timesLog k p + Special.timesLog1p m (-p)

namespace Univariate

/-- Half the logarithm of two pi. -/
def halfLogTwoPi : Float := 0.9189385332046727

/-- The standard normal law. -/
def normal : Univariate where
  shapes := []
  discrete := false
  admits _ := true
  supports _ _ := true
  logDensity _ x := -(x * x) / 2.0 - halfLogTwoPi
  primitive := .standardNormal
  callArgs _ := []
  transform _ t := t

/-- The law of the absolute value of a standard normal number. -/
def halfNormal : Univariate where
  shapes := []
  discrete := false
  admits _ := true
  supports _ x := x ≥ 0.0
  logDensity _ x := 0.5 * Float.log (2.0 / 3.141592653589793) - x * x / 2.0
  primitive := .standardNormal
  callArgs _ := []
  transform _ t := t.abs

/-- The law of the exponential of a normal number with the given standard deviation. -/
def logNormal : Univariate where
  shapes := ["s"]
  discrete := false
  admits ps := ps.all (· > 0.0)
  supports _ x := x > 0.0
  logDensity ps x :=
    let s := ps.headD 0.0
    let l := Float.log x
    Float.neg (l * l) / (2.0 * (s * s)) - Float.log (s * x * Float.sqrt (2.0 * 3.141592653589793))
  primitive := .standardNormal
  callArgs _ := []
  transform ps t := Float.exp (ps.headD 0.0 * t)

/-- The beta law. -/
def beta : Univariate where
  shapes := ["a", "b"]
  discrete := false
  admits ps := ps.all (· > 0.0)
  supports _ x := 0.0 ≤ x && x ≤ 1.0
  logDensity ps x :=
    let a := ps.headD 0.0
    let b := ps.getLastD 0.0
    Special.timesLog1p (b - 1.0) (-x) + Special.timesLog (a - 1.0) x - Special.logBeta a b
  primitive := .beta
  callArgs ps := ps
  transform _ t := t

/-- The gamma law. -/
def gamma : Univariate where
  shapes := ["a"]
  discrete := false
  admits ps := ps.all (· > 0.0)
  supports _ x := x ≥ 0.0
  logDensity ps x :=
    let a := ps.headD 0.0
    Special.timesLog (a - 1.0) x - x - Special.logGamma a
  primitive := .standardGamma
  callArgs ps := ps
  transform _ t := t

/-- The law of the inverse of a gamma number, drawn by inversion. -/
def inverseGamma : Univariate where
  shapes := ["a"]
  discrete := false
  admits ps := ps.all (· > 0.0)
  supports _ x := x > 0.0
  logDensity ps x :=
    let a := ps.headD 0.0
    Float.neg (a + 1.0) * Float.log x - Special.logGamma a - 1.0 / x
  primitive := .uniform
  callArgs _ := [[0.0], [1.0]]
  transform ps t := 1.0 / Special.upperGammaInverse (ps.headD 0.0) t

/-- The exponential law. -/
def exponential : Univariate where
  shapes := []
  discrete := false
  admits _ := true
  supports _ x := x ≥ 0.0
  logDensity _ x := -x
  primitive := .standardExponential
  callArgs _ := []
  transform _ t := t

/-- The uniform law on the unit interval. -/
def uniform : Univariate where
  shapes := []
  discrete := false
  admits _ := true
  supports _ x := 0.0 ≤ x && x ≤ 1.0
  logDensity _ _ := 0.0
  primitive := .uniform
  callArgs _ := [[0.0], [1.0]]
  transform _ t := t

/-- The binomial law. -/
def binomial : Univariate where
  shapes := ["n", "p"]
  discrete := true
  admits ps :=
    let n := ps.headD 0.0
    let p := ps.getLastD 0.0
    n ≥ 0.0 && isWhole n && 0.0 ≤ p && p ≤ 1.0
  supports ps k := 0.0 ≤ k && k ≤ ps.headD 0.0 && isWhole k
  logDensity ps k := logBinomial (ps.headD 0.0) (ps.getLastD 0.0) k
  primitive := .binomial
  callArgs ps := ps
  transform _ t := t

/-- The law of a single trial. -/
def bernoulli : Univariate where
  shapes := ["p"]
  discrete := true
  admits ps := ps.all fun p => 0.0 ≤ p && p ≤ 1.0
  supports _ k := 0.0 ≤ k && k ≤ 1.0 && isWhole k
  logDensity ps k := logBinomial 1.0 (ps.headD 0.0) k
  primitive := .binomial
  callArgs ps := [1.0] :: ps
  transform _ t := t

/-- The Poisson law. -/
def poisson : Univariate where
  shapes := ["mu"]
  discrete := true
  admits ps := ps.all (· ≥ 0.0)
  supports _ k := k ≥ 0.0 && isWhole k
  logDensity ps k :=
    let m := ps.headD 0.0
    Special.timesLog k m - Special.logGamma (k + 1.0) - m
  primitive := .poisson
  callArgs ps := ps
  transform _ t := t

/-! ## Parameters -/

/-- The values of the shape parameters, none of which may be missing, the location and the
    scale. -/
def parameters (u : Univariate) (args : Arguments) :
    Except Fault (List Value × Value × Value) := do
  let shapes ← u.shapes.mapM fun s => match args.lookup s with
    | some v => pure v
    | none => throw .wrongType
  return (shapes, (args.lookup "loc").getD (.int 0), (args.lookup "scale").getD (.int 1))

/-- The common shape of several values. -/
def commonShape (vs : List Value) : Except Fault Shape := do
  let ts ← Value.toTensors vs
  match Shape.broadcastAll? (ts.map Tensor.shape) with
  | some s => return s
  | none => throw .badValue

/-- The number of a stretched grid at a position. -/
def numberAt (idx : List Nat) (g : Grid Float) : Float := g.get (g.shape.stretched idx)

/-! ## Log densities -/

/-- The log density at one point. -/
def logDensityAt (u : Univariate) (ps : List Float) (loc scale x : Float) : Float :=
  let y := (x - loc) / scale
  if !(u.admits ps && scale > 0.0) || y.isNaN then Float.ofBits 0x7FF8000000000000
  else if u.supports ps y then
    u.logDensity ps y - (if u.discrete then 0.0 else Float.log scale)
  else -Float.ofBits 0x7FF0000000000000

/-- The log density at every position of the common shape of point and parameters. -/
def logDensities (u : Univariate) (x : Value) (args : Arguments) : Except Fault (Grid Float) := do
  let (shapes, loc, scale) ← u.parameters args
  let x ← x.toNumbers
  let loc ← loc.toNumbers
  let scale ← scale.toNumbers
  let ps ← shapes.mapM Value.toNumbers
  match Shape.broadcastAll? (x.shape :: loc.shape :: scale.shape :: ps.map Grid.shape) with
  | none => throw .badValue
  | some s =>
    let density (idx : List Nat) : Float :=
      u.logDensityAt (ps.map (numberAt idx)) (numberAt idx loc) (numberAt idx scale)
        (numberAt idx x)
    return Grid.ofFn s density

/-! ## Draws -/

/-- A shape without its leading axes of extent one. -/
def dropLeadingOnes (s : Shape) : Shape := s.dropWhile (· == 1)

/-- A drawn number of a discrete law as an integer. -/
def toWhole (x : Float) : Except Fault Int :=
  if x.isNaN then .error .badValue
  else match Decimal.toInt? x with
    | some i => .ok i
    | none => .error .overflow

/-- A drawn number of a discrete law as a word; the least word stands for numbers that no word
    holds. -/
def toWord (x : Float) : Int :=
  let least : Int := -Int.pow 2 63
  let i := (Decimal.toInt? x).getD least
  if IntFormat.word.holds i then i else least

/-- A computation on values inside a sampling computation. -/
def orFail {σ α : Type} (r : Except Fault α) : Sampling σ α := Sampling.ofExcept (orError r)

/-- One draw. -/
def draw (u : Univariate) (args : Arguments) : Sampling Stream Value := do
  let (shapes, loc, scale) ← orFail (u.parameters args)
  let full ← orFail (commonShape (shapes ++ [loc, scale]))
  let size := dropLeadingOnes full
  let lead := List.replicate (full.length - size.length) 0
  let positions := size.indices.map fun idx => lead ++ idx
  let ps ← orFail (shapes.mapM Value.toNumbers)
  let admitted := positions.all fun idx => u.admits (ps.map (numberAt idx))
  let scales ← orFail scale.toNumbers
  let scaled := positions.all fun idx => numberAt idx scales ≥ 0.0
  if !(admitted && scaled) then throw (.fault .badValue)
  if positions.all fun idx => numberAt idx scales == 0.0 then
    let locs ← orFail loc.toNumbers
    return .ofTensor (.ofFloats (Grid.ofFn size fun idx => numberAt (lead ++ idx) locs * 1.0))
  let lists := ps.map fun g => positions.map fun idx => numberAt idx g
  let ts := (← Stream.call ⟨u.primitive, u.callArgs lists, some size⟩ size.size).toArray
  let locs ← orFail loc.toNumbers
  let drawn := Grid.ofFn size fun idx =>
    let full := lead ++ idx
    let t := ts.getD (size.offset idx) 0.0
    u.transform (ps.map (numberAt full)) t * numberAt full scales + numberAt full locs
  if u.discrete then
    match size with
    | [] => return .int (← orFail (toWhole (drawn.get [])))
    | _ => return .array (.ofInts (drawn.map toWord))
  return .ofTensor (.ofFloats drawn)

end Univariate

end Gibbs
