import ObjectMapping.Catalog.File
import ObjectMapping.Direction
import ObjectMapping.Rules.File
import ObjectMapping.Search.Page

/-! # Settings

What can be set from outside: how many results a page has, the default direction of relationships,
the type under which snapshots are searched, and where the catalog and the rules are found. Every
part may be missing. -/

namespace ObjectMapping

/-- The **settings**. -/
structure Settings where
  /-- The number of results on a page. -/
  pageSize : UInt32 := 10
  /-- The direction of a relationship that was given none. -/
  defaultDirection : Direction := .child
  /-- The type under which snapshots are searched. -/
  snapshotType : String := TypeName.snapshot.text
  /-- Where the catalog of types is found; without it the standard one is taken. -/
  catalogPath : Option String := none
  /-- Where the rules are found; without it the standard ones are taken. -/
  rulesPath : Option String := none
deriving DecidableEq

/-- A text that is no settings file. -/
structure InvalidSettings where
deriving DecidableEq

/-- The refusal of a settings file as JSON. -/
def InvalidSettings.toJson (_ : InvalidSettings) : Json := .failure "Config" none

namespace Settings

/-- The names of the parts of written settings. -/
def partNames : List String :=
  ["page_size", "default_relation", "snapshot_type", "registry_path", "rules_path"]

/-- The settings in a TOML document. -/
def ofToml? (document : Toml.Value) : Option Settings := do
  match ← document.parts? .ignored partNames with
  | [pageSize, direction, snapshotType, catalogPath, rulesPath] =>
    let standard : Settings := {}
    let size := fun (v : Toml.Value) => v.nat32?.map UInt32.ofNat
    return {
      pageSize := ← Toml.Value.withDefault standard.pageSize size pageSize
      defaultDirection := ← Toml.Value.withDefault standard.defaultDirection
        (fun v => v.choice?.bind Direction.ofText?) direction
      snapshotType := ← Toml.Value.withDefault standard.snapshotType Toml.Value.text? snapshotType
      catalogPath := ← Toml.Value.optional Toml.Value.text? catalogPath
      rulesPath := ← Toml.Value.optional Toml.Value.text? rulesPath }
  | _ => none

/-- The settings in a JSON value. -/
def ofJson? (j : Json) : Option Settings := do
  match ← j.parts? partNames with
  | [pageSize, direction, snapshotType, catalogPath, rulesPath] =>
    let standard : Settings := {}
    let size := fun (v : Json) => v.nat32?.map UInt32.ofNat
    return {
      pageSize := ← Json.withDefault standard.pageSize size pageSize
      defaultDirection := ← Json.withDefault standard.defaultDirection Direction.ofJson? direction
      snapshotType := ← Json.withDefault standard.snapshotType Json.text? snapshotType
      catalogPath := ← Json.optional Json.text? catalogPath
      rulesPath := ← Json.optional Json.text? rulesPath }
  | _ => none

/-- Settings as JSON. -/
def toJson (s : Settings) : Json :=
  .object [("page_size", .int s.pageSize.toNat),
    ("default_relation", s.defaultDirection.toJson), ("snapshot_type", .str s.snapshotType),
    ("registry_path", .ofOption (s.catalogPath.map .str)),
    ("rules_path", .ofOption (s.rulesPath.map .str))]

/-- **The settings that a text writes.** -/
def ofText (text : String) : Except InvalidSettings Settings :=
  match (Toml.read? text).bind ofToml? with
  | some settings => .ok settings
  | none => .error {}

/-- The settings that a file holds, or the standard ones when it holds none. -/
def load (file : File) : Settings := file.load ofText {}

/-- The first page of a search; a page has at least one result. -/
def firstPage (s : Settings) : Page := .ofNumber 1 (max s.pageSize 1)

/-- The type under which snapshots are searched. -/
def snapshotName (s : Settings) : TypeName := ⟨s.snapshotType⟩

/-- The catalog that the settings lead to, given what is found at paths. -/
def catalog (s : Settings) (fileAt : String → File) : Catalog :=
  match s.catalogPath with
  | some path => .load (fileAt path)
  | none => .standard

/-- The rules that the settings lead to, given what is found at paths. -/
def book (s : Settings) (fileAt : String → File) : RuleBook :=
  match s.rulesPath with
  | some path => .load (fileAt path)
  | none => .standard

end Settings

end ObjectMapping
