/-
  Selecting parts of an array by index keys.

  A key is an integer, a slice, an ellipsis, a new axis, a truth value or a list of
  integers, or several of these in a tuple.  Integers and slices use up one axis each, an
  ellipsis stands for all axes that are not used, and a new axis uses none.  A list of
  integers or a truth value selects by gathering; integers beside it then belong to the
  gathered selection, and the axis of that selection stands where its parts stood if they
  were next to each other, and in front otherwise.

  * `sliceProgression`: the positions that a slice selects on an axis;
  * `Tensor.select`: the selection, or the fault of a key that does not fit.
-/
import Gibbs.Tensor.Basic

namespace Gibbs

/-- An index key.  `foreign` is an object that is no index at all. -/
inductive Key where
  | int (i : Int)
  | bool (b : Bool)
  | slice (start stop step : Option Int)
  | ellipsis
  | newAxis
  | list (is : List Int)
  | text (s : String)
  | tuple (ks : List Key)
  | foreign

/-- The positions `start, start + step, …` of an axis, `count` of them. -/
structure Progression where
  start : Int
  step : Int
  count : Nat

/-- The position at place `k` of a progression. -/
def Progression.at (r : Progression) (k : Nat) : Nat := (r.start + r.step * k).toNat

/-- The positions that a slice selects on an axis of `extent` positions.  Negative bounds
    count from the end, bounds outside the axis are clipped, and a step of zero is refused. -/
def sliceProgression (extent : Nat) (start stop step : Option Int) : Except Fault Progression :=
  let n : Int := extent
  let d := step.getD 1
  if d == 0 then .error .badValue
  else
    let (least, greatest) : Int × Int := if d > 0 then (0, n) else (-1, n - 1)
    let clip (i : Int) : Int :=
      let j := if i < 0 then i + n else i
      max least (min greatest j)
    let a := match start with
      | some i => clip i
      | none => if d > 0 then least else greatest
    let b := match stop with
      | some i => clip i
      | none => if d > 0 then greatest else least
    let count : Int := if d > 0 then (b - a + d - 1).fdiv d else (a - b - d - 1).fdiv (-d)
    .ok ⟨a, d, count.toNat⟩

/-- One part of a resolved key, in the order of the axes. -/
inductive Part where
  /-- the positions of a progression become an axis of the result -/
  | keep (r : Progression)
  /-- a new axis of extent one -/
  | insert
  /-- one position of an axis, which disappears -/
  | fixed (i : Nat)
  /-- gathered positions of an axis -/
  | pick (is : List Nat)
  /-- a gathered selection that uses no axis -/
  | flag (count : Nat)

namespace Part

/-- The number of gathered positions, for the parts that fix it. -/
def picked? : Part → Option Nat
  | pick is => some is.length
  | flag n => some n
  | _ => none

/-- Whether the part belongs to a gathered selection, if there is one. -/
def gathers : Part → Bool
  | pick _ | flag _ | fixed _ => true
  | _ => false

/-- The axis of the result that the part gives, if any. -/
def extent? : Part → Option Nat
  | keep r => some r.count
  | insert => some 1
  | _ => none

end Part

/-- A position counted from the end if it is negative, on an axis of `extent` positions. -/
def axisPosition (extent : Nat) (i : Int) : Except Fault Nat :=
  let j := if i < 0 then i + extent else i
  if 0 ≤ j ∧ j < extent then .ok j.toNat else .error .badIndex

/-- The number of axes that a key uses. -/
def Key.axes : Key → Nat
  | .int _ | .slice _ _ _ | .list _ => 1
  | _ => 0

/-- Whether the key is an ellipsis. -/
def Key.isEllipsis : Key → Bool
  | .ellipsis => true
  | _ => false

/-- A tuple of integers inside a tuple is a list of integers. -/
def Key.flat : Key → Key
  | .tuple ks =>
    match ks.mapM fun | .int i => some i | _ => none with
    | some is => .list is
    | none => .foreign
  | k => k

/-- The parts of a key on the given axes; `spare` axes are left to the ellipsis. -/
def resolveParts (spare : Nat) : Shape → List Key → Except Fault (List Part)
  | _, [] => .ok []
  | s, .ellipsis :: ks => do
    let kept := (s.take spare).map fun n => Part.keep ⟨0, 1, n⟩
    return kept ++ (← resolveParts spare (s.drop spare) ks)
  | s, .newAxis :: ks => do return .insert :: (← resolveParts spare s ks)
  | s, .bool b :: ks => do return .flag (if b then 1 else 0) :: (← resolveParts spare s ks)
  | n :: s, .int i :: ks => do
    let p ← axisPosition n i
    return .fixed p :: (← resolveParts spare s ks)
  | n :: s, .slice a b d :: ks => do
    let r ← sliceProgression n a b d
    return .keep r :: (← resolveParts spare s ks)
  | n :: s, .list is :: ks => do
    let ps ← is.mapM (axisPosition n)
    return .pick ps :: (← resolveParts spare s ks)
  | _, _ => .error .badIndex

/-- The common number of gathered positions: parts with one position are repeated. -/
def gatheredExtent : List Nat → Except Fault Nat
  | [] => .ok 1
  | n :: rest => do
    let m ← gatheredExtent rest
    if n == m || m == 1 then .ok n else if n == 1 then .ok m else .error .badIndex

/-- The position in the array that is read for a position of the result: `rest` are the
    coordinates on the axes that were kept, `f` is the coordinate on the gathered axis. -/
def sourceOf (f : Nat) : List Part → List Nat → List Nat
  | [], _ => []
  | .keep r :: ps, i :: rest => r.at i :: sourceOf f ps rest
  | .insert :: ps, _ :: rest => sourceOf f ps rest
  | .fixed i :: ps, rest => i :: sourceOf f ps rest
  | .pick is :: ps, rest =>
    (if is.length == 1 then is.headD 0 else is.getD f 0) :: sourceOf f ps rest
  | .flag _ :: ps, rest => sourceOf f ps rest
  | _ :: ps, [] => sourceOf f ps []

/-- Whether the gathering parts stand next to each other. -/
def adjacent (ps : List Part) : Bool :=
  let core := (ps.dropWhile fun p => !p.gathers).reverse.dropWhile fun p => !p.gathers
  core.all Part.gathers

/-- The keys of a tuple, or the key itself. -/
def Key.items : Key → List Key
  | .tuple ks => ks.map Key.flat
  | k => [k]

/-- The part of an array that a key selects. -/
def Tensor.select (t : Tensor) (key : Key) : Except Fault Tensor := do
  let items := key.items
  let used := (items.map Key.axes).foldl (· + ·) 0
  let ellipses := (items.filter Key.isEllipsis).length
  if used > t.rank || ellipses > 1 then throw .badIndex
  let items := if ellipses == 0 then items ++ [.ellipsis] else items
  let parts ← resolveParts (t.rank - used) t.shape items
  let kept := parts.filterMap Part.extent?
  let picked := parts.filterMap Part.picked?
  if picked.isEmpty then
    return t.gather kept fun idx => sourceOf 0 parts idx
  let count ← gatheredExtent picked
  let place :=
    if adjacent parts then
      ((parts.takeWhile fun p => !p.gathers).filterMap Part.extent?).length
    else 0
  return t.gather (kept.take place ++ count :: kept.drop place) fun idx =>
    sourceOf (idx.getD place 0) parts (idx.eraseIdx place)

/-- Whether a key names a single cell of an array with `rank` axes, rather than an array. -/
def Key.isSingle (key : Key) (rank : Nat) : Bool :=
  key.items.length == rank && key.items.all fun k => match k with
    | .int _ => true
    | _ => false

end Gibbs
