import ObjectMapping.TypeName

/-! # Diagnostics of a rule table

What can be wrong with a table of declarations: a mixin that nobody declares, or mixins that lead
back to where they started. Neither stops the resolution of the table. -/

namespace ObjectMapping

/-- A **problem** found while a table of declarations is resolved. -/
inductive Diagnostic where
  /-- A declaration names a mixin that is not declared. -/
  | unknownMixin (owner mixin : TypeName)
  /-- Mixins lead back to where they started; the path begins and ends with the same name. -/
  | mixinCycle (path : List TypeName)
deriving DecidableEq

/-- What the report of a problem says. -/
def Diagnostic.message : Diagnostic → String
  | .unknownMixin owner mixin => owner.text ++ ": unknown mixin " ++ Text.quoted mixin.text
  | .mixinCycle path => "mixin cycle: " ++ " -> ".intercalate (path.map TypeName.text)

/-- A problem as JSON. -/
def Diagnostic.toJson (d : Diagnostic) : Json :=
  match d with
  | .unknownMixin owner mixin =>
    .object [("kind", .str "UnknownMixin"), ("owner", owner.toJson), ("mixin", mixin.toJson),
      ("message", .str d.message)]
  | .mixinCycle path =>
    .object [("kind", .str "MixinCycle"), ("path", .arr (path.map TypeName.toJson)),
      ("message", .str d.message)]

end ObjectMapping
