import ObjectMapping.Catalog.Standard
import ObjectMapping.File
import ObjectMapping.Toml.Document

/-! # Catalog files

A catalog written in TOML: a list `types` of records. Names are checked, names for the interface
that are missing or empty follow from the name of the type, and of two types with one name the first
counts. -/

namespace ObjectMapping

/-- Why a text is not a **catalog file**. -/
inductive CatalogError where
  /-- The text is no document, or a part of it has the wrong form. -/
  | unreadable
  /-- A name is not the name of a type. -/
  | invalidType (cause : InvalidTypeName)
deriving DecidableEq

/-- What the refusal of a name in a catalog file says. -/
def CatalogError.message : CatalogError → Option String
  | .unreadable => none
  | .invalidType cause => some ("invalid type declaration: " ++ cause.message)

/-- The refusal of a catalog file as JSON. -/
def CatalogError.toJson (e : CatalogError) : Json :=
  match e with
  | .unreadable => .failure "RegistryParse" e.message
  | .invalidType _ => .failure "RegistryInvalidType" e.message

namespace TypeInfo

/-- The names of the parts of a written type. -/
def partNames : List String :=
  ["name", "display_name", "plural", "category", "snapshotable", "snapshot_parent", "audit_scope",
   "constraint"]

/-- The type in a TOML value, as it is written: only the name is required. -/
def ofToml? (v : Toml.Value) : Option TypeInfo := do
  match ← v.parts? .ignored partNames with
  | [some name, displayName, plural, category, snapshotable, snapshotParent, auditScope,
      constraint] =>
    let name ← name.text?
    let displayName ← Toml.Value.withDefault "" Toml.Value.text? displayName
    let plural ← Toml.Value.withDefault "" Toml.Value.text? plural
    let category ← Toml.Value.withDefault .other
      (fun v => v.choice?.bind Category.ofText?) category
    let snapshotable ← Toml.Value.withDefault false Toml.Value.boolean? snapshotable
    let snapshotParent ← Toml.Value.withDefault false Toml.Value.boolean? snapshotParent
    let auditScope ← Toml.Value.withDefault false Toml.Value.boolean? auditScope
    let constraint ← Toml.Value.optional (fun v => v.choice?.bind Constraint.ofText?) constraint
    return {
      name := ⟨name⟩, displayName, plural, category, snapshotable, snapshotParent, auditScope,
      constraint }
  | _ => none

/-- A type as a file declares it: the name is checked, and missing names are filled in. -/
def checked (t : TypeInfo) : Except InvalidTypeName TypeInfo :=
  (TypeName.read t.name.text).map fun _ => t.fillNames

end TypeInfo

namespace Catalog

/-- The types that a document declares. -/
def typesOfToml? (document : Toml.Value) : Option (List TypeInfo) := do
  match ← document.parts? .ignored ["types"] with
  | [types] => Toml.Value.withDefault [] (fun v => do (← v.items?).mapM TypeInfo.ofToml?) types
  | _ => none

/-- **The catalog that a text writes.** -/
def ofText (text : String) : Except CatalogError Catalog :=
  match (Toml.read? text).bind typesOfToml? with
  | none => .error .unreadable
  | some types =>
    match types.mapM TypeInfo.checked with
    | .ok types => .ok (ofTypes types)
    | .error cause => .error (.invalidType cause)

/-- The catalog that a file holds, or the standard one when it holds none. -/
def load (file : File) : Catalog := file.load ofText standard

end Catalog

end ObjectMapping
