import ObjectMapping.Proofs.Failure
import ObjectMapping.Proofs.Rules.DeclarationOrder
import ObjectMapping.Proofs.Rules.Sources
import ObjectMapping.Rules.File

/-! # Names in rules files

A rules file names types by declaring them and by listing them in its sections, where sections may
stand in one another to any depth (`RulesFile.NamesType`). All of these names are checked when the
file is loaded, and no others: one that is empty or holds a blank keeps the file from being loaded,
and so nothing but checked names is in the rules of the rule book, whatever mixins bring in and
wherever a circle of mixins is cut.

* **`Section.lists_of_declaration_error`**, **`Section.wellFormed_of_declaration`** — a section is
  refused for a name that it lists, and it is refused for any of them that is not well formed.
* **`RulesFile.namesType_of_mem_resolve`** — the types in the rules are types that the file names.
* **`RulesFile.NamesChecked`** — whether a rules file is refused, and what it writes if it is not.
* **`invalid_names_refused`** — so it is for every rules file, however it was decoded. -/

namespace ObjectMapping

open Relation

/-! ### Names in a file -/

/-- A section **lists** a name in one of its fields, or in those of a section that is written in
place among its mixins, at any depth. -/
inductive Section.Lists : Section → String → Prop where
  /-- The name is in a field of the section itself. -/
  | field {mixins : List SectionMixin} {listed : RuleField → List String} {mega : Option Bool}
    {name : String} (f : RuleField) : name ∈ listed f → Lists (.mk mixins listed mega) name
  /-- A section that is written in place lists the name. -/
  | inline {mixins : List SectionMixin} {listed : RuleField → List String} {mega : Option Bool}
    {inner : Section} {name : String} :
    .inline inner ∈ mixins → Lists inner name → Lists (.mk mixins listed mega) name

/-- A rules file **names a type** when it declares it, or when one of its sections lists it. -/
def RulesFile.NamesType (file : RulesFile) (name : String) : Prop :=
  ∃ entry ∈ file.sections.toList, name = entry.1 ∨ entry.2.Lists name

variable {names : List String} {mixins : List SectionMixin} {listed : RuleField → List String}
  {mega : Option Bool} {s : Section} {d e : Declaration} {cause : InvalidTypeName} {name : String}
  {file : RulesFile} {book : RuleBook} {table : RuleTable}

/-! ### Lists of names -/

/-- The types of a list of names are among these names, all of which are well formed. -/
theorem Section.of_types {set : SortedSet TypeName} (h : types names = .ok set) :
    (∀ name ∈ names, TypeName.WellFormed name) ∧ ∀ x ∈ set, x.text ∈ names := by
  obtain ⟨l, hl, hset⟩ := bind_eq_ok_iff.1 h
  cases hset
  have hread := mapM_eq_ok_iff.1 hl
  refine ⟨fun name hname => ?_, fun x hx => ?_⟩
  · obtain ⟨n, hn⟩ := exists_forall₂_iff.1 ⟨l, hread⟩ name hname
    exact (TypeName.read_eq_ok_iff.1 hn).1
  · obtain ⟨name, hname, hn⟩ := exists_of_mem_of_forall₂ hread (SortedSet.mem_ofList.1 hx)
    obtain ⟨-, rfl⟩ := TypeName.read_eq_ok_iff.1 hn
    exact hname

/-- A list of names is refused for one of them. -/
theorem Section.of_types_error (h : types names = .error cause) :
    cause.text ∈ names ∧ ¬ TypeName.WellFormed cause.text := by
  rw [types, bind_eq_error_iff] at h
  obtain h | ⟨l, -, h⟩ := h
  · obtain ⟨name, hname, h⟩ := exists_error_of_mapM h
    obtain ⟨hbad, rfl⟩ := TypeName.read_eq_error_iff.1 h
    exact ⟨hname, hbad⟩
  · cases h

/-! ### Sections -/

/-- The mixin that one in a section writes; the name of another declaration is not checked. -/
def SectionMixin.mixin : SectionMixin → Except InvalidTypeName Mixin
  | .named name => .ok (.named ⟨name⟩)
  | .inline inner => inner.declaration.map .inline

namespace Section

/-- The mixins of a section are written one by one. -/
theorem sectionMixins_eq_mapM (mixins : List SectionMixin) :
    sectionMixins mixins = mixins.mapM SectionMixin.mixin := by
  induction mixins with
  | nil => rfl
  | cons m rest ih =>
    rw [List.mapM_cons, ← ih]
    cases m with
    | named name => rfl
    | inline inner =>
      rw [sectionMixins, SectionMixin.mixin]
      cases inner.declaration <;> rfl

/-- **What a section writes**: its mixins one by one, the types that it lists in each field, and its
direction. -/
theorem declaration_eq_ok_iff : declaration (.mk mixins listed mega) = .ok d ↔
    List.Forall₂ (fun m m' => SectionMixin.mixin m = .ok m') mixins d.mixins ∧
      (∀ f, types (listed f) = .ok (d.literal f)) ∧ d.mega = mega := by
  rw [← mapM_eq_ok_iff, ← sectionMixins_eq_mapM, declaration]
  simp only [bind_eq_ok_iff]
  constructor
  · rintro ⟨_, hmixins, _, hcreate, _, hmap, _, hunmap, _, hexternalMap, _, hexternalUnmap, _,
      hindirect, h⟩
    cases h
    refine ⟨hmixins, fun f => ?_, rfl⟩
    cases f <;> assumption
  · rintro ⟨hmixins, hlisted, rfl⟩
    obtain ⟨_, _, _⟩ := d
    exact ⟨_, hmixins, _, hlisted .create, _, hlisted .map, _, hlisted .unmap, _,
      hlisted .externalMap, _, hlisted .externalUnmap, _, hlisted .indirect, rfl⟩

/-- A section is refused for one written in place or for one of its fields. -/
theorem of_declaration_error (h : declaration (.mk mixins listed mega) = .error cause) :
    (∃ inner, .inline inner ∈ mixins ∧ inner.declaration = .error cause) ∨
      ∃ f, types (listed f) = .error cause := by
  rw [declaration, sectionMixins_eq_mapM] at h
  obtain h | ⟨_, -, h⟩ := bind_eq_error_iff.1 h
  · obtain ⟨m, hm, h⟩ := exists_error_of_mapM h
    cases m with
    | named name => cases h
    | inline inner => exact .inl ⟨inner, hm, map_eq_error_iff.1 h⟩
  · -- each field is looked at only when nothing is wrong with the ones in front of it
    simp only [bind_eq_error_iff] at h
    obtain h | ⟨_, -, h | ⟨_, -, h | ⟨_, -, h | ⟨_, -, h | ⟨_, -, h | ⟨_, -, h⟩⟩⟩⟩⟩⟩ := h
    · exact .inr ⟨.create, h⟩
    · exact .inr ⟨.map, h⟩
    · exact .inr ⟨.unmap, h⟩
    · exact .inr ⟨.externalMap, h⟩
    · exact .inr ⟨.externalUnmap, h⟩
    · exact .inr ⟨.indirect, h⟩
    · cases h

/-- **A section is refused for a name that it lists.** The recursion follows the sections that
stand in one another. -/
theorem lists_of_declaration_error : ∀ {s : Section}, s.declaration = .error cause →
    s.Lists cause.text ∧ ¬ TypeName.WellFormed cause.text
  | .mk mixins listed mega, h => by
    obtain ⟨inner, hmem, h⟩ | ⟨f, h⟩ := of_declaration_error h
    · -- as an item of the list of mixins, the section in place is smaller
      have : sizeOf inner < sizeOf mixins := by
        have := List.sizeOf_lt_of_mem hmem
        simp only [SectionMixin.inline.sizeOf_spec] at this
        omega
      obtain ⟨hlists, hbad⟩ := lists_of_declaration_error h
      exact ⟨.inline hmem hlists, hbad⟩
    · obtain ⟨hmem, hbad⟩ := of_types_error h
      exact ⟨.field f hmem, hbad⟩
termination_by s => sizeOf s

/-- **A section that is not refused lists only well-formed names**, at any depth. -/
theorem wellFormed_of_declaration (hlists : s.Lists name) (h : s.declaration = .ok d) :
    TypeName.WellFormed name := by
  induction hlists generalizing d with
  | field f hmem =>
    obtain ⟨-, hlisted, -⟩ := declaration_eq_ok_iff.1 h
    exact (of_types (hlisted f)).1 _ hmem
  | inline hmem hlists ih =>
    obtain ⟨hmixins, -, -⟩ := declaration_eq_ok_iff.1 h
    obtain ⟨m, hm⟩ := exists_forall₂_iff.1 ⟨_, hmixins⟩ _ hmem
    obtain ⟨inner, hinner, -⟩ := map_eq_ok_iff.1 hm
    exact ih hinner

end Section

/-! ### Declarations that a file writes -/

/-- A declaration is **written in** a file when some section writes it of which the file names all
the types that it lists. -/
def RulesFile.Writes (file : RulesFile) (d : Declaration) : Prop :=
  ∃ s : Section, s.declaration = .ok d ∧ ∀ name, s.Lists name → file.NamesType name

namespace RulesFile

/-- What a written declaration lists itself is named in the file. -/
theorem Writes.namesType (h : file.Writes d) {f : RuleField} {x : TypeName}
    (hx : x ∈ d.literal f) : file.NamesType x.text := by
  obtain ⟨⟨mixins, listed, mega⟩, hs, hnames⟩ := h
  obtain ⟨-, hlisted, -⟩ := Section.declaration_eq_ok_iff.1 hs
  exact hnames x.text (.field f ((Section.of_types (hlisted f)).2 x hx))

/-- The mixins of a written declaration are names and written declarations; files know no
transforms. -/
theorem Writes.of_mem_mixins {m : Mixin} (h : file.Writes d) (hm : m ∈ d.mixins) :
    (∃ name, m = .named name) ∨ ∃ e, m = .inline e ∧ file.Writes e := by
  obtain ⟨⟨mixins, listed, mega⟩, hs, hnames⟩ := h
  obtain ⟨hmixins, -, -⟩ := Section.declaration_eq_ok_iff.1 hs
  obtain ⟨m', hm', hwritten⟩ := exists_of_mem_of_forall₂ hmixins hm
  cases m' with
  | named name =>
    cases hwritten
    exact .inl ⟨_, rfl⟩
  | inline inner =>
    obtain ⟨e, hinner, rfl⟩ := map_eq_ok_iff.1 hwritten
    exact .inr ⟨e, rfl, inner, hinner, fun name hlists => hnames name (.inline hm' hlists)⟩

section Table

variable (htable : ∀ name d, table.get? name = some d → file.Writes d)
include htable

/-- What a written declaration leads to is written, when the table holds only what is. -/
theorem Writes.reflTransGen (h : file.Writes d) (hleads : ReflTransGen (DrawsOn table) d e) :
    file.Writes e := by
  induction hleads with
  | refl => exact h
  | tail hleads hdraws ih =>
    obtain hmem | ⟨name, -, he⟩ := hdraws
    · obtain ⟨_, hnamed⟩ | ⟨_, hinline, hwrites⟩ := ih.of_mem_mixins hmem
      · cases hnamed
      · cases hinline
        exact hwrites
    · exact htable name _ he

/-- So a written declaration is free of transforms. -/
theorem Writes.freeOfTransforms (h : file.Writes d) : FreeOfTransforms table d := by
  intro e he t ht
  obtain ⟨_, hnamed⟩ | ⟨_, hinline, -⟩ := (h.reflTransGen htable he).of_mem_mixins ht
  · cases hnamed
  · cases hinline

/-- The types in the rules of a table of written declarations are named in the file. -/
theorem namesType_of_mem_ofTable {forbidden : Forbidden} {name x : TypeName} {f : RuleField}
    (hx : x ∈ ((RuleBook.ofTable table forbidden).resolve name).get f) :
    file.NamesType x.text := by
  cases hname : table.get? name with
  | none =>
    rw [resolve_of_undeclared (SortedMap.contains_eq_false_iff.2 hname), RuleSet.get,
      RuleSet.empty, FieldSets.get_empty] at hx
    exact absurd hx (SortedSet.not_mem_empty x)
  | some d =>
    have hwrites := htable name d hname
    obtain ⟨inherited, q, hq, -⟩ := exists_completed hname
    rw [resolve_ofTable hq] at hx
    -- wherever circles are cut, all types stem from what some declaration lists itself
    have hstems := keepsStemming_run table name q hq d hname (hwrites.freeOfTransforms htable)
    obtain ⟨e, he, hlisted⟩ := hstems.types f x hx
    exact (hwrites.reflTransGen htable he).namesType hlisted

end Table

/-! ### Files -/

/-- The declarations of a file are those of its sections, whose names are well formed. -/
theorem declarations_eq_ok_iff {l : List (TypeName × Declaration)} :
    file.declarations = .ok l ↔ List.Forall₂ (fun entry entry' =>
      TypeName.WellFormed entry.1 ∧ entry'.1 = ⟨entry.1⟩ ∧
        entry.2.declaration = .ok entry'.2) file.sections.toList l := by
  rw [declarations, mapM_eq_ok_iff]
  refine iff_of_eq (congrArg (List.Forall₂ · _ _) (funext₂ fun entry entry' => propext ?_))
  simp only [bind_eq_ok_iff, TypeName.read_eq_ok_iff]
  constructor
  · rintro ⟨n, ⟨hgood, rfl⟩, d, hd, h⟩
    cases h
    exact ⟨hgood, rfl, hd⟩
  · rintro ⟨hgood, hn, hd⟩
    exact ⟨_, ⟨hgood, hn⟩, _, hd, rfl⟩

/-- A file is refused for a type that it names. -/
theorem of_book_error (h : file.book = .error cause) :
    file.NamesType cause.text ∧ ¬ TypeName.WellFormed cause.text := by
  obtain h | ⟨_, -, h⟩ := bind_eq_error_iff.1 h
  · obtain ⟨entry, hentry, h⟩ := exists_error_of_mapM h
    obtain h | ⟨n, -, h⟩ := bind_eq_error_iff.1 h
    · obtain ⟨hbad, rfl⟩ := TypeName.read_eq_error_iff.1 h
      exact ⟨⟨entry, hentry, .inl rfl⟩, hbad⟩
    · obtain h | ⟨_, -, h⟩ := bind_eq_error_iff.1 h
      · obtain ⟨hlists, hbad⟩ := Section.lists_of_declaration_error h
        exact ⟨⟨entry, hentry, .inr hlists⟩, hbad⟩
      · cases h
  · cases h

/-- All types that a file names have well-formed names, if it is not refused. -/
theorem wellFormed_of_book (h : file.book = .ok book) (hname : file.NamesType name) :
    TypeName.WellFormed name := by
  obtain ⟨l, hl, -⟩ := bind_eq_ok_iff.1 h
  obtain ⟨entry, hentry, hname⟩ := hname
  obtain ⟨entry', hgood, -, hd⟩ := exists_forall₂_iff.1 ⟨l, declarations_eq_ok_iff.1 hl⟩ entry hentry
  obtain rfl | hlists := hname
  · exact hgood
  · exact Section.wellFormed_of_declaration hlists hd

/-- The names of a rule book are types that its file names. -/
theorem namesType_of_contains (h : file.book = .ok book) {name : TypeName}
    (hname : book.contains name = true) : file.NamesType name.text := by
  obtain ⟨l, hl, hbook⟩ := bind_eq_ok_iff.1 h
  cases hbook
  rw [RuleBook.ofDeclarations, contains_ofTable, SortedMap.contains_ofList, List.mem_map] at hname
  obtain ⟨entry', hentry', rfl⟩ := hname
  obtain ⟨entry, hentry, -, hn, -⟩ := exists_of_mem_of_forall₂ (declarations_eq_ok_iff.1 hl) hentry'
  exact ⟨entry, hentry, .inl (by rw [hn])⟩

/-- **The types in the rules of a rule book are types that its file names.** -/
theorem namesType_of_mem_resolve (h : file.book = .ok book) {name x : TypeName} {f : RuleField}
    (hx : x ∈ (book.resolve name).get f) : file.NamesType x.text := by
  obtain ⟨l, hl, hbook⟩ := bind_eq_ok_iff.1 h
  cases hbook
  refine namesType_of_mem_ofTable (fun name d hd => ?_) hx
  rw [SortedMap.get?_ofList] at hd
  have hmem := List.mem_reverse.1 (SortedMap.mem_of_find?_eq_some hd)
  obtain ⟨entry, hentry, -, -, hd⟩ := exists_of_mem_of_forall₂ (declarations_eq_ok_iff.1 hl) hmem
  exact ⟨entry.2, hd, fun name hlists => ⟨entry, hentry, .inr hlists⟩⟩

end RulesFile

/-! ### Loading -/

/-- The names of a rules file **are checked** when the file is loaded: what comes of loading it. -/
structure RulesFile.NamesChecked (file : RulesFile) (loaded : Except RulesError RuleBook) :
    Prop where
  /-- The file is refused for a name exactly when it declares one, or lists one in a section at any
  depth, that is empty or holds a blank. -/
  refused_iff : (∃ cause, loaded = .error (.invalidType cause)) ↔
    ∃ name, file.NamesType name ∧ ¬ TypeName.WellFormed name
  /-- There is no other reason to refuse the file, and the refusal tells such a name. -/
  reason : ∀ reason, loaded = .error reason → ∃ name, reason = .invalidType ⟨name⟩ ∧
    file.NamesType name ∧ ¬ TypeName.WellFormed name
  /-- If the file is not refused, the declared names are named in it, and none of them is empty or
  holds a blank. -/
  declared : ∀ book, loaded = .ok book → ∀ name, book.contains name = true →
    file.NamesType name.text ∧ TypeName.WellFormed name.text
  /-- So it is for the types in any field of the rules of any name. -/
  types : ∀ book, loaded = .ok book → ∀ name f, ∀ x ∈ (book.resolve name).get f,
    file.NamesType x.text ∧ TypeName.WellFormed x.text

/-- **The names of every rules file are checked** when its rule book is made. -/
theorem RulesFile.namesChecked_book (file : RulesFile) :
    file.NamesChecked (file.book.mapError .invalidType) := by
  cases hbook : file.book with
  | error cause =>
    obtain ⟨hnames, hbad⟩ := RulesFile.of_book_error hbook
    refine ⟨iff_of_true ⟨cause, rfl⟩ ⟨cause.text, hnames, hbad⟩, fun reason hreason => ?_,
      nofun, nofun⟩
    cases hreason
    exact ⟨cause.text, rfl, hnames, hbad⟩
  | ok book =>
    have hgood (name : String) (hname : file.NamesType name) : TypeName.WellFormed name :=
      RulesFile.wellFormed_of_book hbook hname
    refine ⟨iff_of_false nofun fun ⟨name, hname, hbad⟩ => hbad (hgood name hname), nofun,
      fun book' hbook' name hname => ?_, fun book' hbook' name f x hx => ?_⟩
    · cases hbook'
      have hnames := RulesFile.namesType_of_contains hbook hname
      exact ⟨hnames, hgood _ hnames⟩
    · cases hbook'
      have hnames := RulesFile.namesType_of_mem_resolve hbook hx
      exact ⟨hnames, hgood _ hnames⟩

/-- What a text writes is what comes of the rules file that it is decoded into. -/
theorem RuleBook.ofDecoded_of_eq_some {decode : String → Option RulesFile} {text : String}
    (h : decode text = some file) :
    RuleBook.ofDecoded decode text = file.book.mapError .invalidType := by
  rw [ofDecoded, h]

/-- **Invalid names in a rules file are refused**, wherever they stand, and no others are. So it is
for every rules file, and for every text that is decoded into it, in whatever way. -/
theorem invalid_names_refused (file : RulesFile) :
    file.NamesChecked (file.book.mapError .invalidType) ∧
      ∀ (decode : String → Option RulesFile) (text : String), decode text = some file →
        file.NamesChecked (RuleBook.ofDecoded decode text) := by
  refine ⟨file.namesChecked_book, fun decode text h => ?_⟩
  rw [RuleBook.ofDecoded_of_eq_some h]
  exact file.namesChecked_book

/-- The names of the rules file that a text writes in TOML are checked. -/
theorem RuleBook.namesChecked_ofText {text : String}
    (h : (Toml.read? text).bind RulesFile.ofToml? = some file) :
    file.NamesChecked (RuleBook.ofText text) := by
  rw [ofText, ofDecoded_of_eq_some h]
  exact file.namesChecked_book

/-- A file that is refused for a name two sections deep, behind the blank name of a mixin; and one
with a circle, with the blank name of a mixin and with blank and empty names in a forbidden pair,
none of which is checked. In its rules there are a type from a section in place and one from the
other name on the circle. -/
theorem invalid_names_refused_in_place :
    let refused := "[rules.A]\nmixins = [\"no one\", " ++
      "\x7b mixins = [\x7b indirect = [\"X Y\"] \x7d] \x7d]\nmap = [\"X\"]\n"
    let loaded := "[forbidden]\none_way = [[\"\", \"no one\"]]\n" ++
      "[rules.A]\nmixins = [\"B\", \"no one\", \x7b map = [\"X\"] \x7d]\n" ++
      "[rules.B]\nmixins = [\"A\"]\nmap = [\"Y\"]\n"
    (∃ file, (Toml.read? refused).bind RulesFile.ofToml? = some file ∧ file.NamesType "X Y" ∧
        ¬ TypeName.WellFormed "X Y" ∧
        RuleBook.ofText refused = .error (.invalidType ⟨"X Y"⟩)) ∧
      ∃ file book, (Toml.read? loaded).bind RulesFile.ofToml? = some file ∧
        (∀ name, file.NamesType name → TypeName.WellFormed name) ∧
        RuleBook.ofText loaded = .ok book ∧
        ((book.resolve ⟨"A"⟩).get .map).toList = [⟨"X"⟩, ⟨"Y"⟩] ∧
        ∀ name f, ∀ x ∈ (book.resolve name).get f, TypeName.WellFormed x.text := by
  intro refused loaded
  let decode : String → Option RulesFile := fun text => (Toml.read? text).bind RulesFile.ofToml?
  constructor
  · obtain ⟨file, hfile⟩ : ∃ file, (Toml.read? refused).bind RulesFile.ofToml? = some file :=
      Option.isSome_iff_exists.1 (by decide +kernel)
    have hload : RuleBook.ofText refused = .error (.invalidType ⟨"X Y"⟩) :=
      (map_eq_error_iff (f := fun _ => ())).1 (by decide +kernel)
    have hchecked : file.NamesChecked (RuleBook.ofText refused) :=
      (invalid_names_refused file).2 decode refused hfile
    obtain ⟨name, hreason, hnames, hbad⟩ := hchecked.reason _ hload
    cases hreason
    exact ⟨file, hfile, hnames, hbad, hload⟩
  · obtain ⟨file, hfile⟩ : ∃ file, (Toml.read? loaded).bind RulesFile.ofToml? = some file :=
      Option.isSome_iff_exists.1 (by decide +kernel)
    obtain ⟨book, hload, hmap⟩ := (map_eq_ok_iff (x := RuleBook.ofText loaded)
      (f := fun book => ((book.resolve ⟨"A"⟩).get .map).toList)
      (b := [⟨"X"⟩, ⟨"Y"⟩])).1 (by decide +kernel)
    have hchecked : file.NamesChecked (RuleBook.ofText loaded) :=
      (invalid_names_refused file).2 decode loaded hfile
    refine ⟨file, book, hfile, fun name hnames => ?_, hload, hmap, fun name f x hx => ?_⟩
    · by_contra hbad
      obtain ⟨cause, herror⟩ := hchecked.refused_iff.2 ⟨name, hnames, hbad⟩
      cases hload.symm.trans herror
    · exact (hchecked.types book hload name f x hx).2

end ObjectMapping
