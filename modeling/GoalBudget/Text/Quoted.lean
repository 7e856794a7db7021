import GoalBudget.Text.Printable

/-!
# Quoted text

How a piece of text is shown inside a message. It stands between single quotes,
or between double quotes when it holds a single quote and no double one. Inside,
a backslash and the quote in use are written after a backslash; a tabulator, a
line feed and a carriage return have letters of their own; every other character
without a visible form is written by its code point, in two, four or eight
hexadecimal digits. Lists of texts stand in square or round brackets.
-/

namespace GoalBudget.Text

/-- The digits of a number in base sixteen, at least `width` of them. -/
def hexadecimal (width n : Nat) : List Char :=
  let digits := Nat.toDigits 16 n
  List.replicate (width - digits.length) '0' ++ digits

/-- The escape that names a character by its code point. -/
def codePoint (c : Char) : List Char :=
  let n := c.toNat
  if n < 0x100 then '\\' :: 'x' :: hexadecimal 2 n
  else if n < 0x10000 then '\\' :: 'u' :: hexadecimal 4 n
  else '\\' :: 'U' :: hexadecimal 8 n

/-- One character as it stands between quotes of the given kind. -/
def escape (quote c : Char) : List Char :=
  if c == quote || c == '\\' then ['\\', c]
  else if c == '\t' then ['\\', 't']
  else if c == '\n' then ['\\', 'n']
  else if c == '\r' then ['\\', 'r']
  else if isPrintable c then [c]
  else codePoint c

/-- The quote that a text is put between. -/
def quoteFor (text : List Char) : Char :=
  if text.contains '\'' && !text.contains '"' then '"' else '\''

/-- A text between quotes. -/
def quoted (text : String) : String :=
  let chars := text.toList
  let quote := quoteFor chars
  String.ofList (quote :: chars.flatMap (escape quote) ++ [quote])

/-- Several quoted texts between square brackets. -/
def bracketed (texts : List String) : String :=
  "[" ++ ", ".intercalate (texts.map quoted) ++ "]"

/-- Several quoted texts between round brackets. -/
def parenthesized (texts : List String) : String :=
  "(" ++ ", ".intercalate (texts.map quoted) ++ ")"

end GoalBudget.Text
