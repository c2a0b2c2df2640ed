/-! # Blanks, comments and line ends of TOML

A line ends with a line feed, which a carriage return may precede, or with the text. A comment runs
from a number sign to the end of its line and holds no control character but the tab. -/

namespace ObjectMapping.Toml

/-- A **reader**: what it finds at the start of a text, and the rest of the text. -/
abbrev Reader (α : Type) := List Char → Option (α × List Char)

/-- Whether a character is a space or a tab. -/
def isSpace (c : Char) : Bool := c = ' ' || c = '\t'

/-- Whether a character may stand in a comment. -/
def isPrintable (c : Char) : Bool := c = '\t' || (0x20 ≤ c.toNat && c.toNat ≠ 0x7F)

/-- The text without the spaces at its start. -/
def skipSpaces (cs : List Char) : List Char := cs.dropWhile isSpace

/-- The text after a line end. -/
def lineEnd : List Char → Option (List Char)
  | [] => some []
  | '\n' :: rest => some rest
  | '\r' :: '\n' :: rest => some rest
  | _ => none

/-- The text after what may follow a statement on its line: spaces, a comment and the line end. -/
def lineTail (cs : List Char) : Option (List Char) :=
  match skipSpaces cs with
  | '#' :: rest => lineEnd (rest.dropWhile isPrintable)
  | rest => lineEnd rest

/-- The text after spaces, comments and line ends, where a comment has to be closed by a line feed.
The flag says whether the text begins inside a comment. -/
def skipLayout : (inComment : Bool) → List Char → Option (List Char)
  | _, '\n' :: rest => skipLayout false rest
  | _, '\r' :: '\n' :: rest => skipLayout false rest
  | true, [] => none
  | true, c :: rest => if isPrintable c then skipLayout true rest else none
  | false, '#' :: rest => skipLayout true rest
  | false, c :: rest => if isSpace c then skipLayout false rest else some (c :: rest)
  | false, [] => some []

end ObjectMapping.Toml
