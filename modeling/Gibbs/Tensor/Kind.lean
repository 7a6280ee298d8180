/-
  Kinds: what the cells of an array are.

  * `Kind.Carrier`: the type of the cells of a kind;
  * `Kind.join`: the least kind that holds the cells of two kinds;
  * `Kind.convert`: a cell of one kind as a cell of another.

  Integers of a fixed width are kept inside their range: every operation ends in `wrap`.

  The kinds are those that plain scalars and the operations on them lead to.  Floats of
  thirty-two bits, integers of sixteen and thirty-two bits, unsigned integers of less than
  sixty-four bits, and complex numbers are left out.
-/
import Gibbs.Value.Plain

namespace Gibbs

/-- The widths of integers: eight bits, sixty-four bits, and sixty-four without a sign. -/
inductive IntFormat where
  | byte
  | word
  | unsigned
deriving DecidableEq, Repr

/-- The widths of floats: sixteen and sixty-four bits. -/
inductive FloatFormat where
  | half
  | double
deriving DecidableEq, Repr

/-- The kind of the cells of an array. -/
inductive Kind where
  | bool
  | int (f : IntFormat)
  | float (f : FloatFormat)
  /-- texts of at most the given length -/
  | text (width : Nat)
  /-- plain scalars of any type -/
  | object
deriving DecidableEq, Repr

/-- The integer of a width that agrees modulo its range. -/
def IntFormat.wrap : IntFormat → Int → Int
  | .byte, i => i.bmod (Nat.pow 2 8)
  | .word, i => i.bmod (Nat.pow 2 64)
  | .unsigned, i => i % Int.pow 2 64

/-- Whether an integer lies in the range of a width. -/
def IntFormat.holds (f : IntFormat) (i : Int) : Bool := f.wrap i == i

/-- The nearest float of a width. -/
def FloatFormat.round : FloatFormat → Float → Float
  | .half, x => Decimal.roundToHalf x
  | .double, x => x

namespace Kind

/-- The type of the cells of a kind. -/
def Carrier : Kind → Type
  | bool => Bool
  | int _ => Int
  | float _ => Float
  | text _ => String
  | object => Plain

instance (k : Kind) : Inhabited k.Carrier :=
  match k with
  | bool => ⟨false⟩
  | int _ => ⟨(0 : Int)⟩
  | float _ => ⟨(0.0 : Float)⟩
  | text _ => ⟨""⟩
  | object => ⟨Plain.nothing⟩

/-- The name of a kind. -/
def name : Kind → String
  | bool => "bool"
  | int .byte => "int8"
  | int .word => "int64"
  | int .unsigned => "uint64"
  | float .half => "float16"
  | float .double => "float64"
  | text w => "<U" ++ toString w
  | object => "object"

/-- The letter of a kind, which forgets the width. -/
def letter : Kind → String
  | bool => "b"
  | int .unsigned => "u"
  | int _ => "i"
  | float _ => "f"
  | text _ => "U"
  | object => "O"

/-- Whether the cells are texts. -/
def isText : Kind → Bool
  | text _ => true
  | _ => false

/-- The length of the longest text that a number of a kind is written with. -/
def textWidth : Kind → Nat
  | bool => 5
  | int .byte => 4
  | int .word => 21
  | int .unsigned => 20
  | float _ => 32
  | text w => w
  | object => 0

/-- The least kind that holds the cells of two kinds.  Signed and unsigned words only meet
    in doubles. -/
def join : Kind → Kind → Kind
  | object, _ | _, object => object
  | text v, k => text (max v k.textWidth)
  | k, text w => text (max k.textWidth w)
  | bool, k => k
  | k, bool => k
  | int f, int g => if f = g then int f
    else if f = .unsigned ∨ g = .unsigned then float .double else int .word
  | float f, float g => if f = g then float f else float .double
  | int .byte, float g => float g
  | float f, int .byte => float f
  | int _, float _ => float .double
  | float _, int _ => float .double

/-- A cell as a plain scalar. -/
def toPlain : (k : Kind) → k.Carrier → Plain
  | bool, b => .bool b
  | int _, i => .int i
  | float _, x => .float x
  | text _, s => .text s
  | object, p => p

/-- A plain scalar as a cell of a kind that can hold it. -/
def ofPlain : (k : Kind) → Plain → k.Carrier
  | bool, p => match p with
    | .bool b => b
    | .int i => i != 0
    | .float x => x != 0.0
    | _ => false
  | int f, p => match p with
    | .bool b => if b then (1 : Int) else (0 : Int)
    | .int i => f.wrap i
    | .float x => f.wrap ((Decimal.toInt? x).getD 0)
    | _ => (0 : Int)
  | float f, p => match p with
    | .bool b => if b then (1.0 : Float) else (0.0 : Float)
    | .int i => f.round (Decimal.ofInt i)
    | .float x => f.round x
    | _ => (0.0 : Float)
  | text _, p => p.shown
  | object, p => p

/-- A cell of one kind as a cell of another that can hold it. -/
def convert (source target : Kind) (a : source.Carrier) : target.Carrier :=
  if h : source = target then h ▸ a else target.ofPlain (source.toPlain a)

/-- **Converting to the same kind** changes nothing. -/
@[simp] theorem convert_self (k : Kind) (a : k.Carrier) : convert k k a = a := by
  simp [convert]

/-- The kind that an integer literal gets: a signed word, an unsigned one, or an object. -/
def ofInt (i : Int) : Kind :=
  if IntFormat.word.holds i then int .word
  else if IntFormat.unsigned.holds i then int .unsigned
  else object

end Kind

end Gibbs
