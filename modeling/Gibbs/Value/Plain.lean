/-
  Plain scalars: nothing, truth values, integers of any size, doubles and texts.

  * `Plain.written`: the text in which a plain scalar is displayed inside a program;
  * `Plain.shown`: the text in which it is put into a message.
-/
import Gibbs.Decimal.Shortest
import Gibbs.Text.Quoted

namespace Gibbs

/-- A plain scalar; `other` stands for an object of which only its text matters. -/
inductive Plain where
  | nothing
  | bool (b : Bool)
  | int (i : Int)
  | float (x : Float)
  | text (s : String)
  | other (s : String)

instance : Inhabited Plain := ⟨.nothing⟩

namespace Plain

/-- A truth value, written out. -/
def boolText (b : Bool) : String := if b then "True" else "False"

/-- The text of a scalar as part of a program: texts are quoted. -/
def written : Plain → String
  | nothing => "None"
  | bool b => boolText b
  | int i => toString i
  | float x => Decimal.plain x
  | text s => Text.quoted s
  | other s => s

/-- The text of a scalar inside a message: texts are left as they are. -/
def shown : Plain → String
  | text s => s
  | p => p.written

end Plain

end Gibbs
