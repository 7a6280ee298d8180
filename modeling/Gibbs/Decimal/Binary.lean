/-
  Doubles as exact numbers.

  A finite double is a sign together with a magnitude `significand · 2 ^ exponent`; the
  functions here go from doubles to exact numbers and back without rounding twice.

  * `Binary.ofFloat?`: the magnitude of a finite double;
  * `ofRatio`: the double nearest to a quotient of naturals, ties to even, infinite above
    the largest double;
  * `ofInt`, `toInt?`: integers to doubles and doubles to the integers they truncate to;
  * `roundToHalf`: the nearest number with eleven significant bits, as stored in sixteen.
-/

namespace Gibbs.Decimal

/-- The magnitude `significand · 2 ^ exponent`. -/
structure Binary where
  significand : Nat
  exponent : Int
deriving Repr, DecidableEq

/-- Whether the sign bit is set (also that of a zero or of a value that is no number). -/
def isNegative (x : Float) : Bool := x.toBits >>> 63 == 1

/-- The magnitude of a finite double. -/
def Binary.ofFloat? (x : Float) : Option Binary :=
  let bits : Nat := x.toBits.toNat % Nat.pow 2 63
  let field : Nat := bits / Nat.pow 2 52
  let fraction : Nat := bits % Nat.pow 2 52
  if field == 0x7FF then none
  else if field == 0 then some ⟨fraction, -1074⟩
  else some ⟨Nat.pow 2 52 + fraction, (field : Int) - 1075⟩

/-- The magnitude as a quotient of naturals, with a positive denominator. -/
def Binary.toRatio (b : Binary) : Nat × Nat :=
  (b.significand * Nat.pow 2 b.exponent.toNat, Nat.pow 2 (-b.exponent).toNat)

/-- The quotient of `num` by `den`, rounded to the nearest natural, ties to even. -/
def roundQuotient (num den : Nat) : Nat :=
  let q := num / den
  let r := num % den
  if 2 * r < den then q
  else if 2 * r > den then q + 1
  else q + q % 2

/-- `num / den` scaled by `2 ^ (-shift)`, rounded to the nearest natural. -/
def roundScaled (num den : Nat) (shift : Int) : Nat :=
  roundQuotient (num * Nat.pow 2 (-shift).toNat) (den * Nat.pow 2 shift.toNat)

/-- The exponent at which `num / den` has `precision` significant bits, but not below
    `least`. -/
def exponentFor (precision : Nat) (least : Int) (num den : Nat) : Int :=
  let e : Int := (Nat.log2 num : Int) - (Nat.log2 den : Int) - precision
  let fits := num * Nat.pow 2 (-e).toNat < den * Nat.pow 2 e.toNat * Nat.pow 2 precision
  max (if fits then e else e + 1) least

/-- The magnitude nearest to `num / den` among those with `precision` significant bits and
    an exponent of at least `least`, ties to even. -/
def Binary.nearest (precision : Nat) (least : Int) (num den : Nat) : Binary :=
  let e := exponentFor precision least num den
  ⟨roundScaled num den e, e⟩

/-- The double of a magnitude with at most 53 bits and an exponent of at least -1074;
    infinite if the magnitude is beyond the largest double. -/
def Binary.toFloat (b : Binary) : Float :=
  let bits :=
    if b.significand < Nat.pow 2 52 then b.significand
    else (b.exponent + 1075).toNat * Nat.pow 2 52 + (b.significand - Nat.pow 2 52)
  if bits ≥ 0x7FF * Nat.pow 2 52 then Float.ofBits 0x7FF0000000000000
  else Float.ofBits (UInt64.ofNat bits)

/-- The sign put on a magnitude. -/
def signed (negative : Bool) (magnitude : Float) : Float :=
  if negative then -magnitude else magnitude

/-- The double nearest to `num / den`, ties to even. -/
def ofRatio (num den : Nat) : Float :=
  if num == 0 then 0.0 else (Binary.nearest 53 (-1074) num den).toFloat

/-- The double nearest to an integer, ties to even. -/
def ofInt (i : Int) : Float := signed (i < 0) (ofRatio i.natAbs 1)

/-- The integer part of a finite double, toward zero. -/
def toInt? (x : Float) : Option Int :=
  (Binary.ofFloat? x).map fun b =>
    let (num, den) := b.toRatio
    let n : Int := (num / den : Nat)
    if isNegative x then -n else n

/-- Whether a double is finite and has no fractional part. -/
def isIntegral (x : Float) : Bool :=
  match Binary.ofFloat? x with
  | none => false
  | some b => let (num, den) := b.toRatio; num % den == 0

/-- The nearest number that a sixteen-bit float can hold. -/
def roundToHalf (x : Float) : Float :=
  match Binary.ofFloat? x with
  | none => x
  | some b =>
    let (num, den) := b.toRatio
    if num == 0 then x
    else
      let h := Binary.nearest 11 (-24) num den
      let (n, d) := h.toRatio
      signed (isNegative x) (if n ≥ 65536 * d then Float.ofBits 0x7FF0000000000000 else ofRatio n d)

end Gibbs.Decimal
