import ObjectMapping.Search.Query

/-! # Answers to queries

The service answers a query with an object that holds the answer under the name of the type that was
asked for. What an answer has to hold depends on what the query asks for. -/

namespace ObjectMapping

/-- How an answer **fails to fit** its query. -/
inductive Malformed where
  /-- The number of answers is not that of the queries. -/
  | wrongNumber (expected got : Nat)
  /-- There is nothing under the name of the type. -/
  | missingResult (type : TypeName)
  /-- There is no list of objects. -/
  | missingValues (type : TypeName)
  /-- There is no list of numbers. -/
  | missingIds (type : TypeName)
  /-- An entry of the list of numbers is no integer of 64 bits. -/
  | nonIntegerId (type : TypeName) (id : Json)
  /-- There is no count. -/
  | missingCount (type : TypeName)
deriving DecidableEq

/-- What the report of an answer that does not fit says. -/
def Malformed.message : Malformed → String
  | .wrongNumber expected got =>
    "expected " ++ toString expected ++ " results, got " ++ toString got
  | .missingResult type => "missing result for " ++ type.text
  | .missingValues type => type.text ++ ": missing values"
  | .missingIds type => type.text ++ ": missing ids"
  | .nonIntegerId type id => type.text ++ ": non-integer id " ++ id.compact
  | .missingCount type => type.text ++ ": missing count"

/-- Why a **search failed**. -/
inductive SearchError where
  /-- The service could not be reached or failed. -/
  | transport (report : String)
  /-- An answer does not fit its query. -/
  | malformed (cause : Malformed)
  /-- An object in an answer is no reference. -/
  | unreadable
deriving DecidableEq

/-- What the report of a failed search says. -/
def SearchError.message : SearchError → Option String
  | .transport report => some ("transport error: " ++ report)
  | .malformed cause => some ("malformed response: " ++ cause.message)
  | .unreadable => none

/-- A failed search as JSON. -/
def SearchError.toJson (e : SearchError) : Json :=
  match e with
  | .transport _ => .failure "Transport" e.message
  | .malformed _ => .failure "MalformedResponse" e.message
  | .unreadable => .failure "Serialization" e.message

/-- The **answer to a query**. -/
inductive ResultSet where
  /-- Objects, and how many there are on all pages. -/
  | objects (values : List Json) (total : Nat)
  /-- Numbers of objects. -/
  | numbers (ids : List Int)
  /-- How many objects there are. -/
  | count (total : Nat)
deriving DecidableEq

namespace ResultSet

/-- A number of an object in an answer. -/
def readId (type : TypeName) (j : Json) : Except SearchError Int :=
  match j.int64? with
  | some id => .ok id
  | none => .error (.malformed (.nonIntegerId type j))

/-- The answer of a kind in what the service says of a type. A total that is missing is taken to be
the number of objects sent. -/
def ofBody (type : TypeName) (body : Json) (kind : ResultKind) : Except SearchError ResultSet :=
  match kind with
  | .values =>
    match (body.get? "values").bind Json.items? with
    | some values =>
      .ok (.objects values (((body.get? "total").bind Json.nat64?).getD values.length))
    | none => .error (.malformed (.missingValues type))
  | .ids =>
    match (body.get? "ids").bind Json.items? with
    | some items => (items.mapM (readId type)).map .numbers
    | none => .error (.malformed (.missingIds type))
  | .count =>
    match (body.get? "count").bind Json.nat64? with
    | some total => .ok (.count total)
    | none => .error (.malformed (.missingCount type))

/-- **The answer to a query** in what the service sent. -/
def read (q : Query) (response : Json) : Except SearchError ResultSet :=
  match response.get? q.type.text with
  | some body => ofBody q.type body q.kind
  | none => .error (.malformed (.missingResult q.type))

/-- The numbers of the objects in an answer. -/
def idSet : ResultSet → SortedSet Int
  | .objects values _ => .ofList (values.filterMap fun v => (v.get? "id").bind Json.int64?)
  | .numbers ids => .ofList ids
  | .count _ => ∅

/-- An answer as JSON. -/
def toJson : ResultSet → Json
  | .objects values total => .object [("values", .arr values), ("total", .int total)]
  | .numbers ids => .object [("ids", .arr (ids.map .int))]
  | .count total => .object [("count", .int total)]

end ResultSet

end ObjectMapping
