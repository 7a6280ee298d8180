/-
  Texts in quotes.

  A text is quoted with apostrophes, or with double quotes if it holds an apostrophe and no
  double quote.  Inside, the backslash and the quote in use are preceded by a backslash, the
  three usual line and tab characters have their letters, and characters without a printed
  form are given by their code point in the shortest of three hexadecimal notations.

  * `quoted`: the quoted form of a text;
  * `bracketed`: a list of texts, each quoted, in brackets.
-/
import Gibbs.Text.PrintableTable

namespace Gibbs.Text

/-- A natural number in hexadecimal, padded with zeros to `width` digits. -/
def hexadecimal (width n : Nat) : String :=
  let digits := Nat.toDigits 16 n
  String.ofList (List.replicate (width - digits.length) '0' ++ digits)

/-- Whether a character is shown as it is. -/
def isPrintable (c : Char) : Bool :=
  if c.toNat < 128 then 32 ≤ c.toNat && c.toNat < 127 else !unprintable.contains c

/-- The quoted form of one character inside `quote`. -/
def escaped (quote c : Char) : String :=
  if c == quote || c == '\\' then String.ofList ['\\', c]
  else if c == '\n' then "\\n"
  else if c == '\r' then "\\r"
  else if c == '\t' then "\\t"
  else if isPrintable c then String.singleton c
  else if c.toNat < 0x100 then "\\x" ++ hexadecimal 2 c.toNat
  else if c.toNat < 0x10000 then "\\u" ++ hexadecimal 4 c.toNat
  else "\\U" ++ hexadecimal 8 c.toNat

/-- The quote a text is put in. -/
def quoteFor (s : List Char) : Char :=
  if s.contains '\'' && !s.contains '"' then '"' else '\''

/-- The quoted form of a text. -/
def quoted (s : String) : String :=
  let q := quoteFor s.toList
  String.singleton q ++ String.join (s.toList.map (escaped q)) ++ String.singleton q

/-- A list of texts, quoted and in brackets: `['a', 'b']`. -/
def bracketed (names : List String) : String :=
  "[" ++ ", ".intercalate (names.map quoted) ++ "]"

end Gibbs.Text
