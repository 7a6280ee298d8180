/-
  Arithmetic on plain scalars.

  Truth values count as zero and one.  Integers are exact; an integer meeting a double
  becomes the nearest double, and one beyond the largest double is an overflow.  Division of
  integers gives the double nearest to the quotient.  Dividing by zero is a fault, and so is
  a power that leaves the doubles although its operands were finite, be it for an infinite
  or for a complex result: complex numbers are left out.
-/
import Gibbs.Fault
import Gibbs.Value.Plain

namespace Gibbs

/-- A plain number. -/
inductive Number where
  | int (i : Int)
  | float (x : Float)

/-- The number that a plain scalar is, if it is one. -/
def Plain.number? : Plain → Option Number
  | .bool b => some (.int (if b then 1 else 0))
  | .int i => some (.int i)
  | .float x => some (.float x)
  | _ => none

/-- The double of an integer; integers beyond the largest double overflow. -/
def floatOfInt (i : Int) : Except Fault Float :=
  let x := Decimal.ofInt i
  if x.isInf then .error .overflow else .ok x

/-- The double of a number. -/
def Number.toFloat : Number → Except Fault Float
  | .int i => floatOfInt i
  | .float x => .ok x

/-- The four operations whose meaning on numbers is a function on integers and a function on
    doubles. -/
def Plain.combine (onInts : Int → Int → Except Fault Plain)
    (onFloats : Float → Float → Except Fault Float) (a b : Plain) : Except Fault Plain :=
  match a.number?, b.number? with
  | some (.int x), some (.int y) => onInts x y
  | some x, some y => do
    let x ← x.toFloat
    let y ← y.toFloat
    return .float (← onFloats x y)
  | _, _ => .error .wrongType

/-- The double nearest to a quotient of integers. -/
def ratioOfInts (x y : Int) : Except Fault Float :=
  if y == 0 then .error .divisionByZero
  else
    let q := Decimal.signed (decide (x < 0) != decide (y < 0))
      (Decimal.ofRatio x.natAbs y.natAbs)
    if q.isInf then .error .overflow else .ok q

/-- The quotient of two doubles, where the divisor must not be zero. -/
def ratioOfFloats (x y : Float) : Except Fault Float :=
  if y == 0.0 then .error .divisionByZero else .ok (x / y)

/-- A power of doubles.  A negative power of zero divides by zero, and a finite power whose
    magnitude becomes infinite overflows.  Otherwise a power with a fractional exponent of a
    negative number would be a complex number; there are none among the plain scalars, and the
    power is of the wrong type. -/
def powerOfFloats (x y : Float) : Except Fault Float :=
  let finite := x.isFinite && y.isFinite
  if finite && x == 0.0 && y < 0.0 then .error .divisionByZero
  else if finite && (Float.pow x.abs y).isInf then .error .overflow
  else if finite && x < 0.0 && y.floor != y then .error .wrongType
  else .ok (Float.pow x y)

/-- A power of an integer.  The powers of zero, one and minus one repeat. -/
def naturalPower (x : Int) (n : Nat) : Int :=
  if x.natAbs ≤ 1 ∧ 2 < n then x.pow (2 - n % 2) else x.pow n

/-- A power of integers: an integer if the exponent is not negative, a double otherwise. -/
def powerOfInts (x y : Int) : Except Fault Plain :=
  if y ≥ 0 then .ok (.int (naturalPower x y.toNat))
  else do return .float (← powerOfFloats (← floatOfInt x) (← floatOfInt y))

/-- A count of repetitions, which must be an index. -/
def repetitions (n : Int) : Except Fault Nat :=
  if -Int.pow 2 63 ≤ n ∧ n < Int.pow 2 63 then .ok n.toNat else .error .overflow

/-- A text repeated; a count of zero or less gives the empty text. -/
def repeatText (s : String) (n : Int) : Except Fault String := do
  return String.join (List.replicate (← repetitions n) s)

namespace Plain

/-- The sum; texts are joined. -/
def add : Plain → Plain → Except Fault Plain
  | .text s, .text t => .ok (.text (s ++ t))
  | a, b => combine (fun x y => .ok (.int (x + y))) (fun x y => .ok (x + y)) a b

/-- The difference. -/
def sub : Plain → Plain → Except Fault Plain :=
  combine (fun x y => .ok (.int (x - y))) (fun x y => .ok (x - y))

/-- The product; a text times an integer is repeated. -/
def mul (a b : Plain) : Except Fault Plain :=
  match a, b.number?, b, a.number? with
  | .text s, some (.int n), _, _ => do return .text (← repeatText s n)
  | _, _, .text s, some (.int n) => do return .text (← repeatText s n)
  | _, _, _, _ => combine (fun x y => .ok (.int (x * y))) (fun x y => .ok (x * y)) a b

/-- The quotient. -/
def div : Plain → Plain → Except Fault Plain :=
  combine (fun x y => do return .float (← ratioOfInts x y)) ratioOfFloats

/-- The power. -/
def pow : Plain → Plain → Except Fault Plain := combine powerOfInts powerOfFloats

/-- The negative. -/
def neg (a : Plain) : Except Fault Plain :=
  match a.number? with
  | some (.int x) => .ok (.int (-x))
  | some (.float x) => .ok (.float (-x))
  | none => .error .wrongType

/-- The absolute value. -/
def abs (a : Plain) : Except Fault Plain :=
  match a.number? with
  | some (.int x) => .ok (.int x.natAbs)
  | some (.float x) => .ok (.float x.abs)
  | none => .error .wrongType

/-- Whether a number is less than another; nothing is less than a value that is no
    number. -/
def less (a b : Plain) : Except Fault Bool :=
  match a.number?, b.number? with
  | some (.int x), some (.int y) => .ok (x < y)
  | some (.int x), some (.float y) => .ok (decide (Decimal.ofInt x < y))
  | some (.float x), some (.int y) => .ok (decide (x < Decimal.ofInt y))
  | some (.float x), some (.float y) => .ok (decide (x < y))
  | _, _ => .error .wrongType

end Plain

end Gibbs
