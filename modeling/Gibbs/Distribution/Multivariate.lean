/-
  Laws of vectors and matrices.

  * `Dirichlet`: weights that add up to one;
  * `MultivariateNormal`: vectors with a mean and a covariance matrix;
  * `Wishart`, `InverseWishart`: positive definite matrices;
  * `Multinomial`: counts that add up to a number of trials.

  For each law, `logDensities` gives the log densities and `draw` one draw.  Draws of a normal
  vector or of a matrix in one dimension are single numbers.
-/
import Gibbs.Distribution.Univariate
import Gibbs.Linear.Inverse

namespace Gibbs

open Univariate (orFail)

/-- The argument with a keyword, which must be there. -/
def Arguments.need (args : Arguments) (key : String) : Except Fault Value :=
  match args.lookup key with
  | some v => .ok v
  | none => .error .wrongType

/-- The argument with a keyword, unless it is missing or nothing. -/
def Arguments.given? (args : Arguments) (key : String) : Option Value :=
  match args.lookup key with
  | some (.plain .nothing) => none
  | v? => v?

/-- A list of numbers without axes of extent one. -/
def squeezed (shape : Shape) (xs : List Float) : Grid Float :=
  let a := xs.toArray
  let s := shape.filter (· != 1)
  Grid.ofFn s fun idx => a.getD (Shape.offset s idx) 0.0

/-- The sum of a list of numbers, from left to right. -/
def total (xs : List Float) : Float := xs.foldl (· + ·) 0.0

/-! ## Weights -/

namespace Dirichlet

/-- The concentrations: a vector of numbers above zero. -/
def concentrations (args : Arguments) : Except Fault (List Float) := do
  let g ← (← args.need "alpha").toNumbers
  if g.toList.isEmpty then throw .badValue
  if g.toList.any (· ≤ 0.0) && !g.toList.any Float.isNaN then throw .badValue
  match g.shape with
  | [_] => return g.toList
  | _ => throw .badValue

/-- A point with as many weights as concentrations; a missing last weight is what the others
    leave. -/
def weights (count : Nat) (xs : List Float) : List Float :=
  if xs.length + 1 == count then xs ++ [1.0 - sumFloats xs] else xs

/-- Whether a point is in the domain of the law: weights between zero and one that add up to
    one, and none of them zero where the density would be infinite. -/
def inDomain (alpha xs : List Float) : Bool :=
  !xs.any (· < 0.0) && !xs.any (· > 1.0)
    && !(alpha.zip xs).any (fun (a, x) => x == 0.0 && a < 1.0)
    && !((sumFloats xs - 1.0).abs > 10.0e-10)

/-- The log density at the columns of a point. -/
def logDensities (x : Value) (args : Arguments) : Except Fault (Grid Float) := do
  let alpha ← concentrations args
  let g ← x.toNumbers
  let k := alpha.length
  match g.shape with
  | [] => throw .badIndex
  | n :: rest =>
    if n != k && n + 1 != k then throw .badValue
    if rest.length > 1 then throw .badValue
    let columns := (Shape.indices rest).map fun idx =>
      weights k ((List.range n).map fun i => g.get (i :: idx))
    if !columns.all (inDomain alpha) then throw .badValue
    let norm := total (alpha.map Special.logGamma) - Special.logGamma (total alpha)
    let densities := columns.map fun xs =>
      total ((alpha.zip xs).map fun (a, x) => Special.timesLog (a - 1.0) x) - norm
    return squeezed rest densities

/-- One draw: as many numbers as concentrations. -/
def draw (args : Arguments) : Sampling Stream Value := do
  let alpha ← orFail (concentrations args)
  let xs ← Stream.call ⟨.dirichlet, [alpha], some [1]⟩ alpha.length
  return .array (.ofFloats (Grid.ofList xs))

end Dirichlet

/-! ## Normal vectors -/

namespace MultivariateNormal

/-- A mean vector and a covariance matrix; `rows` are the extents of the matrix. -/
structure Parameters where
  dim : Nat
  mean : List Float
  size : Nat
  cov : Matrix

/-- The mean as a vector and the covariance as a matrix.  A single number stands for a
    multiple of the unit matrix, a vector for a diagonal matrix. -/
def parameters (args : Arguments) : Except Fault Parameters := do
  let mean? ← (args.given? "mean").mapM Value.toFloats
  let cov ← ((args.given? "cov").getD (.float 1.0)).toFloats
  let dim := match mean? with
    | some m => m.toList.length
    | none => match cov.shape with
      | n :: _ :: _ => n
      | _ => 1
  let mean := mean?.getD (Grid.ofFn [dim] fun _ => 0.0)
  if dim == 1 then
    match cov.toList with
    | [c] => return ⟨1, mean.toList, 1, Matrix.ofFn 1 fun _ _ => c⟩
    | _ => throw .badValue
  if mean.shape != [dim] then throw .badValue
  match cov.shape with
  | [] => return ⟨dim, mean.toList, dim, Matrix.ofFn dim fun i j =>
      if i == j then cov.get [] else cov.get [] * 0.0⟩
  | [n] => return ⟨dim, mean.toList, n, Matrix.ofFn n fun i j =>
      if i == j then cov.get [i] else 0.0⟩
  | [m, n] =>
    if m != dim || n != dim then throw .badValue
    return ⟨dim, mean.toList, dim, Matrix.ofGrid dim cov []⟩
  | _ => throw .badValue

/-- The eigenvalues and eigenvectors of a covariance, which must be finite and must not have
    an eigenvalue below zero by more than rounding; with the bound for rounding. -/
def spectrum (p : Parameters) : Except Fault (List Float × Matrix × Float) := do
  if p.cov.rows.any fun r => r.any fun x => !x.isFinite then throw .badValue
  let (values, vectors) := p.cov.eigen
  if values.isEmpty then throw .badValue
  let largest := values.foldl (fun m v => if v.abs > m then v.abs else m) 0.0
  let bound := 1.0e6 * 2.220446049250313e-16 * largest
  if values.any (· < -bound) then throw .badValue
  return (values, vectors, bound)

/-- The points at which the density is asked, each a vector, and the shape they are arranged
    in. -/
def points (dim : Nat) (x : Grid Float) : Except Fault (Shape × List (List Float)) :=
  let stretch (n : Nat) (lead : Shape) (row : List Nat → Nat → Float) :
      Except Fault (Shape × List (List Float)) :=
    if n == dim || n == 1 then
      .ok (lead, (Shape.indices lead).map fun idx =>
        (List.range dim).map fun i => row idx (if n == 1 then 0 else i))
    else .error .badValue
  match x.shape with
  | [] => .ok ([], [(List.range dim).map fun _ => x.get []])
  | [n] =>
    if dim == 1 then stretch 1 [n] fun idx _ => x.get idx
    else stretch n [1] fun _ i => x.get [i]
  | s => stretch (s.getLastD 0) s.dropLast fun idx i => x.get (idx ++ [i])

/-- The log density at every point; the covariance must not be singular. -/
def logDensities (x : Value) (args : Arguments) : Except Fault (Grid Float) := do
  let p ← parameters args
  let (values, vectors, bound) ← spectrum p
  if values.any (· ≤ bound) then throw .badMatrix
  if p.size != p.dim then throw .badValue
  let (shape, xs) ← points p.dim (← x.toFloats)
  let logDet := total (values.map Float.log)
  let densities := xs.map fun x =>
    let dev := ((x.zip p.mean).map fun (a, b) => a - b).toArray
    let maha := total <| (List.range p.dim).map fun k =>
      let c := total ((List.range p.dim).map fun i => dev.getD i 0.0 * vectors.entry i k)
      c * c / values.getD k 1.0
    (p.dim.toFloat * 1.8378770664093453 + logDet + maha) * -0.5
  return squeezed shape densities

/-- One draw: as many numbers as the mean has. -/
def draw (args : Arguments) : Sampling Stream Value := do
  let p ← orFail (parameters args)
  let _ ← orFail (spectrum p)
  let xs ← Stream.call ⟨.multivariateNormal, [p.mean, p.cov.toGrid.toList], some [1]⟩ p.dim
  return .ofTensor (.ofFloats (squeezed [p.dim] xs))

end MultivariateNormal

/-! ## Positive definite matrices -/

namespace Wishart

/-- The dimension, the degrees of freedom, the lower factor of the scale and the logarithm of
    its determinant. -/
structure Parameters where
  dim : Nat
  df : Float
  factor : Matrix
  logDet : Float

/-- The logarithm of the determinant of the matrix with a lower factor. -/
def logDetOf (c : Matrix) : Float :=
  2.0 * total ((List.range c.size).map fun i => Float.log (c.entry i i))

/-- The lower factor of a finite positive definite matrix. -/
def factorOf (m : Matrix) : Except Fault Matrix :=
  if m.rows.any fun r => r.any fun x => !x.isFinite then .error .badValue
  else match m.cholesky? with
    | some c => .ok c
    | none => .error .badMatrix

/-- The scale as a square matrix: a single number or a vector stand for diagonal ones. -/
def scaleOf (args : Arguments) : Except Fault Matrix := do
  let g ← (← args.need "scale").toFloats
  match g.shape with
  | [] => return Matrix.ofFn 1 fun _ _ => g.get []
  | [n] => return Matrix.ofFn n fun i j => if i == j then g.get [i] else 0.0
  | [m, n] => if m == n then return Matrix.ofGrid n g [] else throw .badValue
  | _ => throw .badValue

/-- The degrees of freedom: a single number above the dimension less one; nothing stands for
    the dimension. -/
def degrees (dim : Nat) (v : Value) : Except Fault Float := do
  let n ← match v with
    | .plain .nothing => pure dim.toFloat
    | .plain p => match p.number? with
      | some n => n.toFloat
      | none => throw .wrongType
    | .cell c => match c.toPlain.number? with
      | some n => n.toFloat
      | none => throw .wrongType
    | _ => throw .badValue
  if n ≤ dim.toFloat - 1.0 then throw .badValue
  return n

/-- The dimension, the degrees of freedom and the scale. -/
def basics (args : Arguments) : Except Fault (Nat × Float × Matrix) := do
  let df ← args.need "df"
  let scale ← scaleOf args
  return (scale.size, ← degrees scale.size df, scale)

/-- The checked parameters. -/
def parameters (args : Arguments) : Except Fault Parameters := do
  let (dim, df, scale) ← basics args
  let c ← factorOf scale
  return ⟨dim, df, c, logDetOf c⟩

/-- The matrices at which the density is asked, stacked along a last axis. -/
def points (dim : Nat) (x : Grid Float) : Except Fault (List Matrix) :=
  match x.shape with
  | [] => .ok [Matrix.ofFn dim fun i j => if i == j then x.get [] else x.get [] * 0.0]
  | [n] =>
    if dim == 1 then .ok ((List.range n).map fun k => Matrix.ofFn 1 fun _ _ => x.get [k])
    else if n == dim then .ok [Matrix.ofFn n fun i j => if i == j then x.get [i] else 0.0]
    else .error .badValue
  | [m, n] => if m == dim && n == dim then .ok [Matrix.ofGrid n x []] else .error .badValue
  | [m, n, k] =>
    if m == dim && n == dim then
      .ok ((List.range k).map fun c => Matrix.ofFn n fun i j => x.get [i, j, c])
    else .error .badValue
  | _ => .error .badValue

/-- The sum of the squares of all entries. -/
def squareSum (m : Matrix) : Float :=
  total ((List.range m.size).map fun i =>
    total ((List.range m.size).map fun j => m.entry i j * m.entry i j))

/-- The part of the log density that does not depend on the point. -/
def constant (p : Parameters) : Float :=
  0.5 * p.df * p.dim.toFloat * 0.6931471805599453 + Special.logGammaMany (0.5 * p.df) p.dim

/-- The log density at every matrix. -/
def logDensities (x : Value) (args : Arguments) : Except Fault (Grid Float) := do
  let (dim, df, scale) ← basics args
  let xs ← points dim (← x.toFloats)
  let c ← factorOf scale
  let p : Parameters := ⟨dim, df, c, logDetOf c⟩
  let inner := c.lowerInverse
  let densities ← xs.mapM fun m => do
    let f ← factorOf m
    let trace := squareSum (inner.mul f)
    return (0.5 * (df - dim.toFloat - 1.0) * logDetOf f - 0.5 * trace)
      - (constant p + 0.5 * df * p.logDet)
  return squeezed [densities.length] densities

/-- A lower triangular matrix with the given numbers below the diagonal, row by row, and the
    square roots of the given numbers on it. -/
def triangular (dim : Nat) (below diagonal : List Float) : Matrix :=
  let b := below.toArray
  let d := diagonal.toArray
  Matrix.ofFn dim fun i j =>
    if i == j then (d.getD i 0.0).sqrt
    else if j < i then b.getD (i * (i - 1) / 2 + j) 0.0
    else 0.0

/-- A square matrix as a value; in one dimension its only entry. -/
def ofMatrix (m : Matrix) : Value :=
  if m.size == 1 then .double (m.entry 0 0) else .array (.ofFloats m.toGrid)

/-- One draw: normal numbers below the diagonal and chi-square numbers on it. -/
def draw (args : Arguments) : Sampling Stream Value := do
  let p ← orFail (parameters args)
  let below := p.dim * (p.dim - 1) / 2
  let normals ← Stream.call ⟨.normal, [[0.0], [1.0]], some [below]⟩ below
  let squares ← (List.range p.dim).mapM fun i => do
    let xs ← Stream.call ⟨.chisquare, [[p.df - i.toFloat]], some [1]⟩ 1
    return xs.headD 0.0
  let a := p.factor.mul (triangular p.dim normals squares)
  return ofMatrix (a.mul a.transpose)

end Wishart

namespace InverseWishart

open Wishart

/-- The log density at every matrix. -/
def logDensities (x : Value) (args : Arguments) : Except Fault (Grid Float) := do
  let (dim, df, scale) ← basics args
  let xs ← points dim (← x.toFloats)
  let c ← factorOf scale
  let p : Parameters := ⟨dim, df, c, logDetOf c⟩
  let densities ← xs.mapM fun m => do
    let (logDet, trace) ←
      if dim == 1 then
        let e := m.entry 0 0
        pure (Float.log e, c.entry 0 0 * c.entry 0 0 / e)
      else do
        let f ← factorOf m
        pure (logDetOf f, squareSum (f.lowerInverse.mul c))
    return (0.5 * df * p.logDet - 0.5 * trace)
      - (constant p + 0.5 * (df + dim.toFloat + 1.0) * logDet)
  return squeezed [densities.length] densities

/-- One draw: the factor of the scale times the inverse of a triangular matrix of normal and
    chi-square numbers, times its own transpose. -/
def draw (args : Arguments) : Sampling Stream Value := do
  let p ← orFail (parameters args)
  let n := p.dim
  let below := n * (n - 1) / 2
  let normals ← Stream.call ⟨.normal, [[0.0], [1.0]], some [1, below]⟩ below
  let dfs := (List.range n).map fun i => (p.df - n.toFloat + 1.0) + i.toFloat
  let squares ← Stream.call ⟨.chisquare, [dfs], some [1, n]⟩ n
  let a := triangular n normals squares
  if n == 1 then
    let r := p.factor.entry 0 0 / a.entry 0 0
    return .double (r * r)
  let x := p.factor.mul a.lowerInverse
  return ofMatrix (x.mul x.transpose)

end InverseWishart

/-! ## Counts -/

namespace Multinomial

/-- The number of trials and the probabilities, where the last probability makes up for a sum
    that is not one. -/
def parameters (args : Arguments) : Except Fault (Int × List Float) := do
  let n ← args.need "n"
  let g ← (← args.need "p").toFloats
  let ps ← match g.shape with
    | [] => throw .badIndex
    | [_] => pure g.toList
    | _ => throw .badValue
  let most := ps.dropLast
  let ps := if (1.0 - sumFloats ps).abs > 1.0e-15 then most ++ [1.0 - sumFloats most] else ps
  let trials ← match ← n.toFloats with
    | ⟨[], cells, _⟩ => Univariate.toWhole (cells.getD 0 0.0)
    | _ => throw .badValue
  return (trials, ps)

/-- The log probability of counts; nan for bad parameters. -/
def logDensities (x : Value) (args : Arguments) : Except Fault (Grid Float) := do
  let (n, ps) ← parameters args
  let g ← x.toFloats
  let whole ← g.mapM Univariate.toWhole
  let k := g.shape.getLastD 0
  if g.shape.isEmpty || k != ps.length then throw .badValue
  let bad := n < 0 || ps.any (· < 0.0) || ps.any (· > 1.0)
  let lead := g.shape.dropLast
  let densities := (Shape.indices lead).map fun idx =>
    let xs := (List.range k).map fun i => g.get (idx ++ [i])
    let counts := (List.range k).map fun i => whole.get (idx ++ [i])
    let outside := (xs.zip counts).any (fun (x, c) => x != Decimal.ofInt c)
      || counts.any (· < 0) || counts.foldl (· + ·) 0 != n
    if bad then Float.ofBits 0x7FF8000000000000
    else if outside then -Float.ofBits 0x7FF0000000000000
    else Special.logGamma (Decimal.ofInt n + 1.0)
      + total ((xs.zip ps).map fun (x, p) => Special.timesLog x p - Special.logGamma (x + 1.0))
  let a := densities.toArray
  return Grid.ofFn lead fun idx => a.getD (Shape.offset lead idx) 0.0

/-- One draw: as many counts as probabilities. -/
def draw (args : Arguments) : Sampling Stream Value := do
  let (n, ps) ← orFail (parameters args)
  let xs ← Stream.call ⟨.multinomial, [[Decimal.ofInt n], ps], none⟩ ps.length
  let counts ← orFail (xs.mapM Univariate.toWhole)
  return .array (.ofInts (Grid.ofList counts))

end Multinomial

end Gibbs
