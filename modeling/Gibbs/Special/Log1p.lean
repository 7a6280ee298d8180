/-
  The logarithm of `1 + x`, accurate for small `x`.
-/

namespace Gibbs.Special

/-- The logarithm of `1 + x`.  Near zero it is twice the inverse hyperbolic tangent of
    `x / (2 + x)`, which loses no digits. -/
def log1p (x : Float) : Float :=
  if x.abs < 0.5 then
    if x == 0.0 then x else 2.0 * Float.atanh (x / (2.0 + x))
  else Float.log (1.0 + x)

end Gibbs.Special
