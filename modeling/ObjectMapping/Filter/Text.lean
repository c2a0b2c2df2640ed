import ObjectMapping.Filter

/-! # The text of a filter

A filter is shown to people as text: `"Title" ~ "audit" AND ("Status" = "Active" OR "Risk" > 3)`.
Names and texts stand in quotes, inside of which a backslash goes before a quote and before a
backslash; the side of a node that is a node itself stands in parentheses. -/

namespace ObjectMapping

namespace Filter

/-- One character inside quotes. -/
def escapeChar (c : Char) : List Char := if c = '"' ∨ c = '\\' then ['\\', c] else [c]

/-- The characters of a text as they stand inside quotes. -/
def escape (cs : List Char) : List Char := cs.flatMap escapeChar

/-- A text in quotes. -/
def quoted (s : String) : String := String.ofList ('"' :: escape s.toList ++ ['"'])

end Filter

/-- A literal as text. -/
def Literal.written : Literal → String
  | .text s => Filter.quoted s
  | .number n => toString n.toInt
  | .bool true => "true"
  | .bool false => "false"
  | .list items => "(" ++ ", ".intercalate (items.map Filter.quoted) ++ ")"

/-- A condition as text. -/
def Condition.text (c : Condition) : String :=
  Filter.quoted c.field ++ " " ++ c.comparison.text ++ " " ++ c.literal.written

namespace Filter

/-- The text of a side of a node, given the text of the filter that stands there. -/
def operandText (side : Filter) (text : String) : String :=
  match side with
  | .binary _ _ _ => "(" ++ text ++ ")"
  | _ => text

/-- **The text of a filter.** -/
def text : Filter → String
  | .empty => ""
  | .condition c => c.text
  | .binary left connective right =>
    operandText left left.text ++ " " ++ connective.text ++ " " ++ operandText right right.text

end Filter

end ObjectMapping
