/-
  Identifiers: the names a model may use.

  An identifier starts with a letter or an underscore and goes on with letters, digits,
  underscores and combining marks, in the sense of Unicode's `XID_Start` and
  `XID_Continue`.  Names are compared as they are written: they are not normalised.

  * `isIdentifier`: the test;
  * `Name`: a text that passes it;
  * `Name.ofText?`: reading a text as a name.
-/
import Gibbs.Text.IdentifierTable

namespace Gibbs.Text

/-- The characters that may open an identifier. -/
def opensIdentifier (c : Char) : Bool :=
  if c.toNat < 128 then c.isAlpha || c == '_' else xidStart.contains c

/-- The characters that may stand inside an identifier. -/
def continuesIdentifier (c : Char) : Bool :=
  if c.toNat < 128 then c.isAlphanum || c == '_'
  else xidStart.contains c || xidExtra.contains c

/-- Whether a text is an identifier. -/
def isIdentifier (s : String) : Bool :=
  match s.toList with
  | [] => false
  | c :: rest => opensIdentifier c && rest.all continuesIdentifier

end Gibbs.Text

namespace Gibbs

/-- A name: a text that is an identifier. -/
structure Name where
  text : String
  isIdentifier_text : Text.isIdentifier text = true
deriving DecidableEq

/-- The text as a name, if it is an identifier. -/
def Name.ofText? (s : String) : Option Name :=
  if h : Text.isIdentifier s = true then some ⟨s, h⟩ else none

/-- **Names are their texts.** -/
theorem Name.ext_text {a b : Name} (h : a.text = b.text) : a = b := by
  cases a; cases b; cases h; rfl

theorem Name.ofText?_text (n : Name) : Name.ofText? n.text = some n := by
  simp [Name.ofText?, n.isIdentifier_text]

end Gibbs
