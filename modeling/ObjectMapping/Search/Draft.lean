import ObjectMapping.Search.Query

/-! # Drafts of queries

A query is put together part by part, in any order: filters are joined to those that are there
already, anchors are added to them, and of a page, a kind of answer and a right the last one counts.
Whether there is a page is decided in the end: only a query for the objects themselves has one
(`QueryDraft.query`). -/

namespace ObjectMapping

/-- One **part** that is put into a query. -/
inductive QueryPart where
  /-- A filter that the objects have to pass as well. -/
  | filter (filter : Filter)
  /-- What the objects have to be related to as well. -/
  | anchor (anchor : Anchor)
  /-- The page to answer. -/
  | page (page : Page)
  /-- The kind of the answer. -/
  | kind (kind : ResultKind)
  /-- The right that the user has to hold on the objects. -/
  | access (access : RequiredAccess)

/-- A **query in the making**. -/
structure QueryDraft where
  /-- The type of the objects. -/
  type : TypeName
  /-- Which objects are meant. -/
  filter : Filter := .empty
  /-- What the objects have to be related to. -/
  anchors : List Anchor := []
  /-- The page, if one has been given. -/
  page : Option Page := none
  /-- The kind of the answer. -/
  kind : ResultKind := .values
  /-- The right that the user has to hold on the objects. -/
  access : Option RequiredAccess := none
deriving DecidableEq

namespace QueryDraft

/-- The draft with one more part. -/
def add (d : QueryDraft) : QueryPart → QueryDraft
  | .filter f => { d with filter := d.filter.and f }
  | .anchor a => { d with anchors := d.anchors ++ [a] }
  | .page p => { d with page := some p }
  | .kind k => { d with kind := k }
  | .access a => { d with access := some a }

/-- The draft with parts put in one after the other. -/
def addAll (d : QueryDraft) (parts : List QueryPart) : QueryDraft := parts.foldl add d

/-- **The query that a draft has become.** A page counts only for objects. -/
def query (d : QueryDraft) : Query where
  type := d.type
  filter := d.filter
  anchors := d.anchors
  demand := .ofKind d.kind d.page
  access := d.access

end QueryDraft

/-- **The query for objects of a type that is put together from parts.** -/
def Query.build (type : TypeName) (parts : List QueryPart) : Query :=
  (QueryDraft.addAll { type } parts).query

end ObjectMapping
