/-
  Decimal texts of doubles.

  * `digitsAt`: a positive quotient on the decimal grid with a given number of significant
    digits, rounded to nearest with ties to even;
  * `shortest`: the fewest digits that still read back as the same double, and among those
    the ones nearest to it;
  * `plain`: the shortest digits, positional from `1e-04` up to below `1e+16` and with an
    exponent elsewhere;
  * `scientific`: one digit before the point, a fixed number after it, and an exponent.
-/
import Gibbs.Decimal.Binary

namespace Gibbs.Decimal

/-- The number of decimal digits of a natural. -/
def digitCount (n : Nat) : Nat := (Nat.toDigits 10 n).length

/-- The least `d` with `num / den < 10 ^ d`, for a positive quotient. -/
def decade (num den : Nat) : Int :=
  if den ≤ num then digitCount (num / den)
  else 1 - (digitCount ((den - 1) / num) : Int)

/-- `num / den` in units of `10 ^ place`, as a quotient. -/
def inUnits (num den : Nat) (place : Int) : Nat × Nat :=
  (num * Nat.pow 10 (-place).toNat, den * Nat.pow 10 place.toNat)

/-- A positive decimal number: `digits · 10 ^ place`. -/
structure Digits where
  digits : Nat
  place : Int
deriving Repr, DecidableEq

/-- The value of a decimal number as a quotient. -/
def Digits.toRatio (d : Digits) : Nat × Nat :=
  (d.digits * Nat.pow 10 d.place.toNat, Nat.pow 10 (-d.place).toNat)

/-- `num / den` rounded to `count` significant digits, ties to even. -/
def digitsAt (count num den : Nat) : Digits :=
  let place := decade num den - count
  let (n, d) := inUnits num den place
  let q := roundQuotient n d
  if q == Nat.pow 10 count then ⟨Nat.pow 10 (count - 1), place + 1⟩ else ⟨q, place⟩

/-- Whether a decimal number reads back as a magnitude with `precision` significant bits.
    These numbers lie between two bounds, which belong to them if the significand is even.
    Bounds and magnitude are given in quarters of `2 ^ exponent`, the unit of the
    significand; below a power of two the gap is half as wide. -/
def readsBack (precision : Nat) (least : Int) (b : Binary) (c : Digits) : Bool :=
  let (n, d) := c.toRatio
  let (s, t) : Nat × Nat := (Nat.pow 2 b.exponent.toNat, 4 * Nat.pow 2 (-b.exponent).toNat)
  let m := 4 * b.significand
  let narrow := b.significand == Nat.pow 2 (precision - 1) && b.exponent != least
  let below := if narrow then m - 1 else m - 2
  let above := m + 2
  let low := below * s * d
  let high := above * s * d
  let x := n * t
  if b.significand % 2 == 0 then low ≤ x && x ≤ high else low < x && x < high

/-- The decimal numbers with `count` digits next to a magnitude, the nearer one first and
    the even one first in a tie. -/
def neighbours (b : Binary) (count : Nat) : List Digits :=
  let (num, den) := b.toRatio
  let place := decade num den - count
  let (n, d) := inUnits num den place
  let q := n / d
  if roundQuotient n d == q then [⟨q, place⟩, ⟨q + 1, place⟩]
  else [⟨q + 1, place⟩, ⟨q, place⟩]

/-- The first decimal number of the least digit count that reads back; seventeen digits
    always do. -/
def shortest (precision : Nat) (least : Int) (b : Binary) : Digits :=
  let candidates := (List.range 17).flatMap fun k => neighbours b (k + 1)
  (candidates.find? (readsBack precision least b)).getD (let (n, d) := b.toRatio; digitsAt 17 n d)

/-- The digits without trailing zeros; the last digit moves up by as many places. -/
def Digits.trimmed (d : Digits) : Digits :=
  let ds := (Nat.toDigits 10 d.digits).reverse
  let zeros := (ds.takeWhile (· == '0')).length
  if d.digits == 0 then d else ⟨d.digits / Nat.pow 10 zeros, d.place + zeros⟩

/-- An exponent: a sign and at least two digits. -/
def exponentText (e : Int) : String :=
  let digits := toString e.natAbs
  (if e < 0 then "-" else "+") ++ (if digits.length < 2 then "0" ++ digits else digits)

/-- Digits with a point after the first one, if there is more than one. -/
def pointed : List Char → String
  | [] => ""
  | [c] => String.singleton c
  | c :: rest => String.singleton c ++ "." ++ String.ofList rest

/-- The text of a positive decimal number: positional if its decade is between -3 and 16,
    with an exponent otherwise. -/
def Digits.text (d : Digits) : String :=
  let ds := Nat.toDigits 10 d.digits
  let point : Int := d.place + ds.length
  if -3 ≤ point && point ≤ 16 then
    if point ≤ 0 then "0." ++ String.ofList (List.replicate (-point).toNat '0' ++ ds)
    else if d.place ≥ 0 then
      String.ofList (ds ++ List.replicate d.place.toNat '0') ++ ".0"
    else
      String.ofList (ds.take point.toNat) ++ "." ++ String.ofList (ds.drop point.toNat)
  else pointed ds ++ "e" ++ exponentText (point - 1)

/-- The text of a double, where `render` writes the magnitudes other than zero and `zero` is
    the text of a zero magnitude. -/
def signedText (zero : String) (render : Binary → String) (x : Float) : String :=
  match Binary.ofFloat? x with
  | none => if x.isNaN then "nan" else if isNegative x then "-inf" else "inf"
  | some b =>
    let body := if b.significand == 0 then zero else render b
    if isNegative x then "-" ++ body else body

/-- The shortest text that reads back as the same double. -/
def plain : Float → String :=
  signedText "0.0" fun b => (shortest 53 (-1074) b).trimmed.text

/-- The shortest text that reads back as the same sixteen-bit float. -/
def plainHalf : Float → String :=
  signedText "0.0" fun b =>
    let (num, den) := b.toRatio
    (shortest 11 (-24) (Binary.nearest 11 (-24) num den)).trimmed.text

/-- The text with one digit before the point and `places` digits after it. -/
def scientific (places : Nat) : Float → String :=
  let zero := pointed ('0' :: List.replicate places '0') ++ "e+00"
  signedText zero fun b =>
    let (num, den) := b.toRatio
    let d := digitsAt (places + 1) num den
    pointed (Nat.toDigits 10 d.digits) ++ "e" ++ exponentText (d.place + places)

end Gibbs.Decimal
