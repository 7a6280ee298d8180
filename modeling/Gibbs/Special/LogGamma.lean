/-
  The logarithm of the gamma function and what is built from it.

  * `logGamma`: by a rational approximation between two and three, reached by the recurrence,
    and by the asymptotic series from thirteen on;
  * `logBeta`, `logGammaMany`: the logarithms of the beta function and of the gamma function
    of several dimensions;
  * `timesLog`, `timesLog1p`: `a · log x` and `a · log (1 + x)` with zero times anything zero.
-/
import Gibbs.Special.Log1p

namespace Gibbs.Special

/-- A polynomial, the coefficient of the highest power first. -/
def polynomial (coefficients : List Float) (x : Float) : Float :=
  match coefficients with
  | [] => 0.0
  | c :: cs => cs.foldl (fun acc d => acc * x + d) c

/-- The rational approximation of the logarithm of the gamma function on `[2, 3]`, at
    `x = z - 2` and without the factor `x`. -/
def logGammaRatio (x : Float) : Float :=
  polynomial [-1.37825152569120859100e3, -3.88016315134637840924e4, -3.31612992738871184744e5,
    -1.16237097492762307383e6, -1.72173700820839662146e6, -8.53555664245765465627e5] x
  / polynomial [1.0, -3.51815701436523470549e2, -1.70642106651881159223e4,
    -2.20528590553854454839e5, -1.13933444367982507207e6, -2.53252307177582951285e6,
    -2.01889141433532773231e6] x

/-- The correction to Stirling's formula, in `1 / x ^ 2` and without the factor `1 / x`. -/
def stirlingTail (p : Float) : Float :=
  polynomial [8.11614167470508450300e-4, -5.95061904284301438324e-4, 7.93650340457716943945e-4,
    -2.77777777730099687205e-3, 8.33333333333331927722e-2] p

/-- The argument moved into `[2, 3)` together with the product of the factors passed on the
    way; `fuel` bounds the number of steps. -/
def reduceArgument : Nat → Float → Float → Float × Float
  | 0, u, z => (u, z)
  | fuel + 1, u, z =>
    if u ≥ 3.0 then reduceArgument fuel (u - 1.0) (z * (u - 1.0))
    else if u < 2.0 then
      if u == 0.0 then (2.0, Float.ofBits 0x7FF0000000000000)
      else reduceArgument fuel (u + 1.0) (z / u)
    else (u, z)

/-- The logarithm of the gamma function of a positive number. -/
def logGamma (x : Float) : Float :=
  if x.isNaN || x.isInf then x.abs
  else if x < 0.0 then Float.ofBits 0x7FF8000000000000
  else if x < 13.0 then
    let (u, z) := reduceArgument 16 x 1.0
    if u == 2.0 then Float.log z
    else
      let y := u - 2.0
      Float.log z + y * logGammaRatio y
  else
    let q := (x - 0.5) * Float.log x - x + 0.91893853320467274178
    if x > 1.0e8 then q else q + stirlingTail (1.0 / (x * x)) / x

/-- The logarithm of the beta function. -/
def logBeta (a b : Float) : Float := logGamma a + logGamma b - logGamma (a + b)

/-- The logarithm of the gamma function of `d` dimensions. -/
def logGammaMany (a : Float) (d : Nat) : Float :=
  let pi := 3.141592653589793
  let n := d.toFloat
  (List.range d).foldl (fun s j => s + logGamma (a - j.toFloat / 2.0))
    (n * (n - 1.0) * 0.25 * Float.log pi)

/-- `a · log x`, zero if `a` is zero. -/
def timesLog (a x : Float) : Float :=
  if a == 0.0 && !x.isNaN then 0.0 else a * Float.log x

/-- `a · log (1 + x)`, zero if `a` is zero. -/
def timesLog1p (a x : Float) : Float :=
  if a == 0.0 && !x.isNaN then 0.0 else a * log1p x

end Gibbs.Special
