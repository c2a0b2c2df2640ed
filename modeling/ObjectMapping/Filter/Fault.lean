import ObjectMapping.Filter

/-! # Faults in filter text

Why a text is refused as a filter, and where: the place is counted in bytes of the UTF-8
encoding. -/

namespace ObjectMapping

/-- Why a text is **not a filter**. -/
inductive FilterFault where
  /-- A `!` is not followed by `=` or `~`. -/
  | loneBang
  /-- A quoted text has no end. -/
  | unterminated
  /-- The tree or the parentheses are nested too deep. -/
  | tooDeep
  /-- A condition does not begin with the name of a field. -/
  | noField
  /-- The name of a field is not followed by a comparison. -/
  | noComparison
  /-- A comparison is not followed by a literal. -/
  | noLiteral
  /-- The word `IN` is not followed by a parenthesis. -/
  | noList
  /-- A list has no item where one is due. -/
  | noItem
  /-- An item of a list is followed by neither a comma nor a parenthesis. -/
  | noSeparator
  /-- An opening parenthesis has no partner. -/
  | noClosing
  /-- The text goes on after the filter. -/
  | trailing
deriving DecidableEq

/-- The deepest tree, and the deepest nesting of parentheses, that is read. -/
def Filter.depthLimit : Nat := 64

/-- What the report of a fault says. -/
def FilterFault.message : FilterFault → String
  | .loneBang => "expected '=' or '~' after '!'"
  | .unterminated => "unterminated string"
  | .tooDeep => "filter nested deeper than " ++ toString Filter.depthLimit ++ " levels"
  | .noField => "expected field name"
  | .noComparison => "expected comparison operator"
  | .noLiteral => "expected value"
  | .noList => "expected '(' after IN"
  | .noItem => "expected list item"
  | .noSeparator => "expected ',' or ')'"
  | .noClosing => "expected ')'"
  | .trailing => "unexpected trailing input"

/-- A **fault** in filter text and its place. -/
structure FilterError where
  /-- The place of the fault, in bytes from the start. -/
  position : Nat
  /-- What is wrong. -/
  fault : FilterFault
deriving DecidableEq

/-- What the refusal of filter text says. -/
def FilterError.message (e : FilterError) : String :=
  "parse error at " ++ toString e.position ++ ": " ++ e.fault.message

/-- The refusal of filter text as JSON. -/
def FilterError.toJson (e : FilterError) : Json := .failure "Parse" (some e.message)

end ObjectMapping
