import ObjectMapping.Filter.Reader
import ObjectMapping.Filter.Text

/-! # Summaries of filters

A filter in the forms in which it is looked at: as text, as JSON, condition by condition, and
whether its text leads back to it. -/

namespace ObjectMapping

/-- A condition with its parts and its text. -/
def Condition.summary (c : Condition) : Json :=
  .object [("field", .str c.field), ("op", .str c.comparison.text), ("value", c.literal.toJson),
    ("text", .str c.text)]

namespace Filter

/-- Whether the text of a filter is read as the filter itself, or why it is not read. -/
def rereads (f : Filter) : Except FilterError Bool := (read f.text).map fun g => g = f

/-- **A filter in all its forms.** -/
def summary (f : Filter) : Json :=
  .object [("text", .str f.text), ("json", f.toJson),
    ("conditions", .arr (f.conditions.map Condition.summary)), ("is_empty", .bool f.isEmpty),
    ("reparse",
      match f.rereads with
      | .ok same => .bool same
      | .error e => e.toJson)]

end Filter

end ObjectMapping
