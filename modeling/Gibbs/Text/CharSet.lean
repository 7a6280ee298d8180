/-
  Sets of characters as sorted lists of code points.

  A set is given by the code points at which membership changes: the first one opens the
  first range of members, the second one closes it (exclusively), and so on.

  * `contains`: membership, by the parity of the changes at or below a code point.
-/

namespace Gibbs.Text

/-- A set of characters, by the ascending code points at which membership changes. -/
structure CharSet where
  changes : List Nat

/-- A character is a member if an odd number of changes lies at or below it. -/
def CharSet.contains (s : CharSet) (c : Char) : Bool :=
  s.changes.countP (· ≤ c.toNat) % 2 == 1

end Gibbs.Text
