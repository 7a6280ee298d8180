/-
  Blanks, and the division of a text into words.

  * `isBlank`: the white space of Unicode together with the four ASCII information
    separators;
  * `words`: the maximal runs of characters that satisfy no separator test.
-/

namespace Gibbs.Text

/-- The blank characters: tabs, line ends, the information separators and the spaces of
    Unicode. -/
def isBlank (c : Char) : Bool :=
  let n := c.toNat
  (9 ≤ n && n ≤ 13) || (28 ≤ n && n ≤ 32) || n == 0x85 || n == 0xA0 || n == 0x1680
    || (0x2000 ≤ n && n ≤ 0x200A) || n == 0x2028 || n == 0x2029 || n == 0x202F
    || n == 0x205F || n == 0x3000

/-- The words of a text, where `current` is the word being read. -/
def wordsFrom (separates : Char → Bool) (current : List Char) : List Char → List (List Char)
  | [] => if current.isEmpty then [] else [current]
  | c :: rest =>
    if separates c then
      if current.isEmpty then wordsFrom separates [] rest
      else current :: wordsFrom separates [] rest
    else wordsFrom separates (current ++ [c]) rest

/-- The maximal runs of characters that do not separate. -/
def words (separates : Char → Bool) (text : List Char) : List (List Char) :=
  wordsFrom separates [] text

end Gibbs.Text
