import ObjectMapping.File
import ObjectMapping.Rules.Standard
import ObjectMapping.Toml.Document

/-! # Rules files

Rules written in TOML: a table `rules` with a section for each declared name, and a table
`forbidden` with lists of pairs. A section lists mixins, each a name or a section written in place,
and types by field. The declared names and all listed types are checked, at any depth; the names of
mixins and the forbidden pairs are not. -/

namespace ObjectMapping

/-- Why a text is not a **rules file**. -/
inductive RulesError where
  /-- The text is no document, or a part of it has the wrong form. -/
  | unreadable
  /-- A name is not the name of a type. -/
  | invalidType (cause : InvalidTypeName)
deriving DecidableEq

/-- What the refusal of a name in a rules file says. -/
def RulesError.message : RulesError → Option String
  | .unreadable => none
  | .invalidType cause => some ("invalid type name in rules: " ++ cause.message)

/-- The refusal of a rules file as JSON. -/
def RulesError.toJson (e : RulesError) : Json :=
  match e with
  | .unreadable => .failure "RuleParse" e.message
  | .invalidType _ => .failure "RuleInvalidType" e.message

mutual

/-- A **section** of a rules file: a declaration whose names have not been checked. -/
inductive Section where
  /-- The mixins, the types listed by field, and the direction. -/
  | mk (mixins : List SectionMixin) (listed : RuleField → List String) (mega : Option Bool)

/-- A mixin in a section. -/
inductive SectionMixin where
  /-- Another declaration, by name. -/
  | named (name : String)
  /-- A section written in place. -/
  | inline (inner : Section)

end

namespace Section

/-- The section that says nothing. -/
def empty : Section := .mk [] (fun _ => []) none

/-- The names of the parts of a section. -/
def partNames : List String :=
  ["mixins", "create", "map", "unmap", "external_map", "external_unmap", "indirect", "mega"]

/-- The section with the given parts, where `inner` reads the section of a mixin. -/
def ofParts? (inner : Toml.Value → Option Section) (parts : List (Option Toml.Value)) :
    Option Section := do
  let mixin : Toml.Value → Option SectionMixin := fun v =>
    match v.text? with
    | some name => some (.named name)
    | none => (inner v).map .inline
  match parts with
  | [mixins, create, map, unmap, externalMap, externalUnmap, indirect, mega] =>
    let texts := Toml.Value.withDefault [] Toml.Value.texts?
    let mixins ← Toml.Value.withDefault [] (fun v => do (← v.items?).mapM mixin) mixins
    let create ← texts create
    let map ← texts map
    let unmap ← texts unmap
    let externalMap ← texts externalMap
    let externalUnmap ← texts externalUnmap
    let indirect ← texts indirect
    let mega ← Toml.Value.optional Toml.Value.boolean? mega
    let listed : RuleField → List String
      | .create => create
      | .map => map
      | .unmap => unmap
      | .externalMap => externalMap
      | .externalUnmap => externalUnmap
      | .indirect => indirect
    return .mk mixins listed mega
  | _ => none

/-- The section in a TOML value. The `room` bounds how deep sections stand in one another; only a
section written in place refuses parts beyond the last. -/
def ofTomlWithin? (surplus : Toml.Value.Surplus) : (room : Nat) → Toml.Value → Option Section
  | 0, _ => none
  | room + 1, v => do ofParts? (ofTomlWithin? .refused room) (← v.parts? surplus partNames)

/-- A section's parts give the same section under readers that agree on all items of the parts. -/
theorem ofParts?_congr {inner inner' : Toml.Value → Option Section}
    {parts : List (Option Toml.Value)}
    (h : ∀ part items, some part ∈ parts → part.items? = some items →
      ∀ v ∈ items, inner v = inner' v) :
    ofParts? inner parts = ofParts? inner' parts := by
  have mapM_congr (f g : Toml.Value → Option SectionMixin) (items : List Toml.Value)
      (hfg : ∀ v ∈ items, f v = g v) : items.mapM f = items.mapM g := by
    induction items with
    | nil => rfl
    | cons v rest ih =>
      rw [List.mapM_cons, List.mapM_cons, hfg v (List.mem_cons_self ..),
        ih fun w hw => hfg w (List.mem_cons_of_mem _ hw)]
  unfold ofParts?
  split
  · next mixins _ _ _ _ _ _ _ =>
    cases mixins with
    | none => rfl
    | some part =>
      cases hi : part.items? with
      | none => simp [Toml.Value.withDefault, hi]
      | some items =>
        have hm := fun v hv => h part items (List.mem_cons_self ..) hi v hv
        simp only [Toml.Value.withDefault, hi, Option.bind_eq_bind, Option.bind_some]
        rw [mapM_congr _ _ items fun v hv => by rw [hm v hv]]
  · rfl

/-- More room than a value is deep makes no difference. -/
theorem ofTomlWithin?_of_depth_lt {surplus : Toml.Value.Surplus} {room room' : Nat}
    {v : Toml.Value} (h : v.depth < room) (h' : v.depth < room') :
    ofTomlWithin? surplus room v = ofTomlWithin? surplus room' v := by
  induction room generalizing surplus room' v with
  | zero => exact absurd h (Nat.not_lt_zero _)
  | succ room ih =>
    cases room' with
    | zero => exact absurd h' (Nat.not_lt_zero _)
    | succ room' =>
      unfold ofTomlWithin?
      cases hp : v.parts? surplus partNames with
      | none => rfl
      | some parts =>
        refine ofParts?_congr fun part items hm hi w hw => ?_
        have hw : w.depth < v.depth := by
          cases part <;> simp only [Toml.Value.items?, Option.some.injEq, reduceCtorEq] at hi
          subst hi
          have := Toml.Value.depth_lt_of_mem_parts? hp hm
          simp only [Toml.Value.depth] at this
          exact Nat.lt_of_le_of_lt (Toml.Value.depth_le_itemsDepth hw) (by omega)
        exact ih (by omega) (by omega)

/-- The section in a TOML value. By `ofTomlWithin?_of_depth_lt` the depth of the value is room
enough, since every section in place is less deep than the one around it. -/
def ofToml? (v : Toml.Value) : Option Section := ofTomlWithin? .ignored (v.depth + 1) v

/-- The types of a list of names, each of which is checked. -/
def types (names : List String) : Except InvalidTypeName (SortedSet TypeName) := do
  return .ofList (← names.mapM TypeName.read)

mutual

/-- The declaration that a section writes, with all listed types checked: those of sections written
in place first, then field by field. -/
def declaration : Section → Except InvalidTypeName Declaration
  | .mk mixins listed mega => do
    let mixins ← sectionMixins mixins
    let create ← types (listed .create)
    let map ← types (listed .map)
    let unmap ← types (listed .unmap)
    let externalMap ← types (listed .externalMap)
    let externalUnmap ← types (listed .externalUnmap)
    let indirect ← types (listed .indirect)
    return .mk mixins { create, map, unmap, externalMap, externalUnmap, indirect } mega

/-- The mixins that a section lists. -/
def sectionMixins : List SectionMixin → Except InvalidTypeName (List Mixin)
  | [] => .ok []
  | .named name :: rest => do return .named ⟨name⟩ :: (← sectionMixins rest)
  | .inline inner :: rest => do
    let d ← declaration inner
    return .inline d :: (← sectionMixins rest)

end

end Section

/-- A **rules file** as it is written. -/
structure RulesFile where
  /-- The pairs forbidden in one direction. -/
  oneWay : List (String × String)
  /-- The pairs forbidden in both directions. -/
  twoWay : List (String × String)
  /-- The sections by declared name. -/
  sections : SortedMap String Section

namespace RulesFile

/-- A pair of texts at the start of a list. -/
def pair? (v : Toml.Value) : Option (String × String) := do
  match ← v.items? with
  | a :: b :: _ => return (← a.text?, ← b.text?)
  | _ => none

/-- A list of pairs. -/
def pairs? (v : Toml.Value) : Option (List (String × String)) := do (← v.items?).mapM pair?

/-- The forbidden pairs of a document: in one direction and in both. -/
def forbidden? (v : Toml.Value) :
    Option (List (String × String) × List (String × String)) := do
  match ← v.parts? .ignored ["one_way", "two_way"] with
  | [oneWay, twoWay] =>
    return (← Toml.Value.withDefault [] pairs? oneWay, ← Toml.Value.withDefault [] pairs? twoWay)
  | _ => none

/-- The sections of a document by name. -/
def sections? (v : Toml.Value) : Option (List (String × Section)) := do
  (← v.entries?).mapM fun (name, inner) => do
    return (name, ← Section.ofToml? inner)

/-- The rules file that a document writes. -/
def ofToml? (document : Toml.Value) : Option RulesFile := do
  match ← document.parts? .ignored ["forbidden", "rules"] with
  | [forbidden, rules] =>
    let (oneWay, twoWay) ← Toml.Value.withDefault ([], []) forbidden? forbidden
    let sections ← Toml.Value.withDefault [] sections? rules
    return ⟨oneWay, twoWay, .ofList sections⟩
  | _ => none

/-- The declarations of a rules file in the order of their names, with all names checked. -/
def declarations (f : RulesFile) : Except InvalidTypeName (List (TypeName × Declaration)) :=
  f.sections.toList.mapM fun (name, inner) => do
    let name ← TypeName.read name
    return (name, ← inner.declaration)

/-- The forbidden pairs of a rules file. -/
def forbidden (f : RulesFile) : Forbidden where
  oneWay := f.oneWay.map fun (a, b) => (⟨a⟩, ⟨b⟩)
  twoWay := f.twoWay.map fun (a, b) => (⟨a⟩, ⟨b⟩)

/-- The rule book that a rules file writes. -/
def book (f : RulesFile) : Except InvalidTypeName RuleBook := do
  return RuleBook.ofDeclarations (← f.declarations) f.forbidden

end RulesFile

namespace RuleBook

/-- The rules that a text writes, given what rules file it is decoded into. -/
def ofDecoded (decode : String → Option RulesFile) (text : String) : Except RulesError RuleBook :=
  match decode text with
  | none => .error .unreadable
  | some file => file.book.mapError .invalidType

/-- **The rules that a text writes** in TOML. -/
def ofText (text : String) : Except RulesError RuleBook :=
  ofDecoded (fun text => (Toml.read? text).bind RulesFile.ofToml?) text

/-- The rules that a file holds, or the standard ones when it holds none. -/
def load (file : File) : RuleBook := file.load ofText standard

end RuleBook

end ObjectMapping
