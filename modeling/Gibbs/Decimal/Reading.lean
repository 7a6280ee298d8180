/-
  Reading doubles from decimal text.

  A number is an optional sign, digits with at most one point among them, and an optional
  exponent; `nan`, `inf` and `infinity` are read as well, in either case.  The value is the
  double nearest to the number that is written.

  * `readDigits?`: the exact number without its sign, as digits and their place;
  * `read?`: the double.
-/
import Gibbs.Decimal.Shortest

namespace Gibbs.Decimal

/-- The value of a run of decimal digits, added to what was read before. -/
def digitsValue (before : Nat) (ds : List Char) : Nat :=
  ds.foldl (fun n c => 10 * n + (c.toNat - '0'.toNat)) before

/-- An optional sign: whether it is a minus, and the rest. -/
def splitSign : List Char → Bool × List Char
  | '-' :: rest => (true, rest)
  | '+' :: rest => (false, rest)
  | cs => (false, cs)

/-- An exponent after its letter: a sign and at least one digit, and nothing else. -/
def readExponent? (cs : List Char) : Option Int :=
  let (negative, ds) := splitSign cs
  if ds.isEmpty || !ds.all Char.isDigit then none
  else
    let n : Int := digitsValue 0 ds
    some (if negative then -n else n)

/-- The exponent part of a number, if there is one. -/
def readTail? : List Char → Option Int
  | [] => some 0
  | c :: rest => if c == 'e' || c == 'E' then readExponent? rest else none

/-- A number without its sign. -/
def readDigits? (cs : List Char) : Option Digits :=
  let whole := cs.takeWhile Char.isDigit
  let afterWhole := cs.dropWhile Char.isDigit
  let (fraction, tail) :=
    match afterWhole with
    | '.' :: rest => (rest.takeWhile Char.isDigit, rest.dropWhile Char.isDigit)
    | rest => ([], rest)
  if whole.isEmpty && fraction.isEmpty then none
  else (readTail? tail).map fun e =>
    ⟨digitsValue (digitsValue 0 whole) fraction, e - fraction.length⟩

/-- Numbers above `10 ^ 310` are infinite and those below `10 ^ (-400)` zero, so that no
    larger power of ten is ever needed. -/
def Digits.toFloat (d : Digits) : Float :=
  let magnitude := d.place + digitCount d.digits
  if d.digits == 0 || magnitude < -400 then 0.0
  else if magnitude > 311 then Float.ofBits 0x7FF0000000000000
  else let (n, m) := d.toRatio; ofRatio n m

/-- The double nearest to the number that a text writes. -/
def read? (s : String) : Option Float :=
  let (negative, cs) := splitSign s.toList
  let lower := String.ofList (cs.map Char.toLower)
  if lower == "nan" then some (Float.ofBits 0x7FF8000000000000)
  else if lower == "inf" || lower == "infinity" then
    some (signed negative (Float.ofBits 0x7FF0000000000000))
  else (readDigits? cs).map fun d => signed negative d.toFloat

end Gibbs.Decimal
