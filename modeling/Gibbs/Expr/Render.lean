/-
  Expressions as text.

  Binary operators stand between their operands in brackets, functions in front of theirs,
  and index keys in square brackets behind.  Names go through a formatter, which shows
  look-ups into the state.

  * `Key.text`: a key as it stands between square brackets;
  * `Expr.render`: the text of an expression; operations without a symbol have none.
-/
import Gibbs.Expr.Basic

namespace Gibbs

/-- An optional bound of a slice. -/
def boundText : Option Int → String
  | none => ""
  | some i => toString i

/-- A bound of a slice as an argument. -/
def boundArgument : Option Int → String
  | none => "None"
  | some i => toString i

/-- A list of integers in square brackets. -/
def intsText (is : List Int) : String := "[" ++ ", ".intercalate (is.map toString) ++ "]"

namespace Key

mutual

/-- A key as a value of its own. -/
def written : Key → String
  | int i => toString i
  | bool b => Plain.boolText b
  | slice a b d => "slice(" ++ boundArgument a ++ ", " ++ boundArgument b ++ ", "
      ++ boundArgument d ++ ")"
  | ellipsis => "Ellipsis"
  | newAxis => "None"
  | list is => intsText is
  | text s => Text.quoted s
  | tuple ks =>
    match ks with
    | [k] => "(" ++ written k ++ ",)"
    | ks => "(" ++ ", ".intercalate (writtenAll ks) ++ ")"
  | foreign => "expression"

/-- Several keys, each as a value of its own. -/
def writtenAll : List Key → List String
  | [] => []
  | k :: ks => written k :: writtenAll ks

end

/-- One part of a key between square brackets. -/
def partText : Key → String
  | slice a b d => boundText a ++ ":" ++ boundText b
      ++ (match d with
        | none => ""
        | some i => ":" ++ toString i)
  | ellipsis => "..."
  | k => k.written

/-- A key between square brackets; the parts of a tuple are separated by commas. -/
def bracketText : Key → String
  | tuple ks => ", ".intercalate (ks.map partText)
  | k => k.partText

end Key

/-- The symbol of an element-wise function. -/
def Element.symbol : Element → String
  | abs => "abs"
  | exp => "exp"
  | log => "log"
  | log1p => "log1p"
  | sqrt => "sqrt"
  | sin => "sin"
  | cos => "cos"
  | tanh => "tanh"

/-- The symbol of an operation of arithmetic. -/
def Arith.symbol : Arith → String
  | add => "+"
  | sub => "-"
  | mul => "*"
  | div => "/"
  | pow => "**"

/-- A function in front of its operands. -/
def called (symbol : String) (operands : String) : String := symbol ++ "(" ++ operands ++ ")"

/-- An operator between its operands. -/
def between (symbol left right : String) : String :=
  "(" ++ left ++ " " ++ symbol ++ " " ++ right ++ ")"

/-- The text of an operation on one expression. -/
def UnaryOp.render (x : String) : UnaryOp → Except Error String
  | neg => .ok ("(-" ++ x ++ ")")
  | element e => .ok (called e.symbol x)
  | sum .all => .ok (called "sum" x)
  | sum (.at i) => .ok (called "sum" (x ++ ", axis=" ++ toString i))
  | sum (.flag b) => .ok (called "sum" (x ++ ", axis=" ++ Plain.boolText b))
  | inverse => .ok (called "inv" x)
  | transpose => .ok (called "transpose" x)
  | diagonal => .ok (called "diag" x)
  | index k => .ok (x ++ "[" ++ k.bracketText ++ "]")
  | custom c => if c.symbol == "" then .error .symbolMissing else .ok (called c.symbol x)

/-- The text of an operation on two expressions. -/
def BinaryOp.render (x y : String) : BinaryOp → Except Error String
  | arith a => .ok (between a.symbol x y)
  | matmul => .ok (between "@" x y)
  | outer => .ok (called "outer" (x ++ ", " ++ y))
  | dot => .ok (called "dot" (x ++ ", " ++ y))
  | custom c => if c.symbol == "" then .error .symbolMissing else .ok (between c.symbol x y)

namespace Expr

/-- The text of an expression, with its names written by `formatName`. -/
def render (formatName : String → String) : Expr → Except Error String
  | var n => .ok (formatName n.text)
  | literal v => .ok v.written
  | bare => .error .notDisplayable
  | unary op e => do
    let x ← e.render formatName
    op.render x
  | binary op l r => do
    let x ← l.render formatName
    let y ← r.render formatName
    op.render x y

/-- The text of an expression with bare names. -/
def text (e : Expr) : Except Error String := e.render id

/-- The text of an expression together with the class name of its root. -/
def described (e : Expr) : Except Error String := do
  return "<" ++ e.className ++ ": " ++ (← e.text) ++ ">"

end Expr

end Gibbs
