/-
  The inverse of the upper part of the regularised incomplete gamma function.

  Below `a + 1` the lower part is summed as a series, above it the upper part is evaluated as
  a continued fraction.  The inverse is found by halving: first the power of two below it,
  then the place inside that interval.

  * `lowerSeries`, `upperFraction`: the two parts, which add up to one;
  * `upperGammaInverse`: the `x` at which the upper part has a given value.
-/
import Gibbs.Special.LogGamma

namespace Gibbs.Special

/-- The common factor `x ^ a · exp (-x) / Γ(a)`. -/
def gammaFactor (a x : Float) : Float := Float.exp (a * Float.log x - x - logGamma a)

/-- The series of the lower part: `term` is the last term added, `n` its denominator. -/
def gammaSeries : Nat → Float → Float → Float → Float → Float
  | 0, _, _, _, s => s
  | fuel + 1, x, n, term, s =>
    let n := n + 1.0
    let term := term * x / n
    let t := s + term
    if t == s then s else gammaSeries fuel x n term t

/-- The continued fraction of the upper part, by the method of Lentz. -/
def gammaFraction : Nat → Float → Float → Float → Float → Float → Float → Float
  | 0, _, _, _, _, _, h => h
  | fuel + 1, a, i, b, c, d, h =>
    let tiny := 1.0e-300
    let an := -(i * (i - a))
    let b := b + 2.0
    let d0 := an * d + b
    let d := 1.0 / (if d0.abs < tiny then tiny else d0)
    let c0 := b + an / c
    let c := if c0.abs < tiny then tiny else c0
    let delta := d * c
    let h' := h * delta
    if (delta - 1.0).abs < 1.0e-16 then h' else gammaFraction fuel a (i + 1.0) b c d h'

/-- The lower part by its series. -/
def lowerSeries (a x : Float) : Float :=
  gammaFactor a x * gammaSeries 20000 x a (1.0 / a) (1.0 / a)

/-- The upper part by its continued fraction. -/
def upperFraction (a x : Float) : Float :=
  let b := x + 1.0 - a
  let d := 1.0 / b
  gammaFactor a x * gammaFraction 20000 a 1.0 b 1.0e300 d d

/-- Whether the upper part at `x` is still above `y`, compared through the part that is
    computed directly. -/
def upperAbove (a y x : Float) : Bool :=
  if x < a + 1.0 then lowerSeries a x < 1.0 - y else upperFraction a x > y

/-- The least integer in `[low, low + width)` at which a test fails, by halving. -/
def firstFailing (test : Int → Bool) : Nat → Int → Int → Int
  | 0, low, _ => low
  | fuel + 1, low, high =>
    if high - low ≤ 1 then (if test low then high else low)
    else
      let middle := (low + high) / 2
      if test middle then firstFailing test fuel middle high
      else firstFailing test fuel low middle

/-- The place in an interval where a test changes from true to false, by halving. -/
def changePoint (test : Float → Bool) : Nat → Float → Float → Float
  | 0, low, high => 0.5 * (low + high)
  | fuel + 1, low, high =>
    let middle := 0.5 * (low + high)
    if test middle then changePoint test fuel middle high else changePoint test fuel low middle

/-- The `x` at which the upper part has the value `y`. -/
def upperGammaInverse (a y : Float) : Float :=
  if y.isNaN || a.isNaN || y < 0.0 || y > 1.0 then Float.ofBits 0x7FF8000000000000
  else if y == 0.0 then Float.ofBits 0x7FF0000000000000
  else if y == 1.0 then 0.0
  else
    let power (k : Int) : Float := Float.scaleB 1.0 k
    let k := firstFailing (fun k => upperAbove a y (power k)) 12 (-1060) 1020
    changePoint (upperAbove a y) 60 (power (k - 1)) (power k)

end Gibbs.Special
