import ObjectMapping.Search.Outcome

/-! # Search sessions

A list of results may be refreshed while the answer to an earlier search is still due. Each request
gets a token, and only the answer to the request with the newest token counts; what comes for any
other request is dropped, a failure too.

* **`Session.step`** — what happens in a session, one event at a time: tokens are issued, batches
  sent, answers received and requests abandoned in any order. -/

namespace ObjectMapping

/-- What a **request** is for. -/
inductive Work where
  /-- The answers to queries as they are. -/
  | execute (queries : List Query)
  /-- The outcome of a search, given the chosen directions and the default one. -/
  | search (plan : Plan) (chosen : ChosenDirections) (fallback : Direction)

/-- What a request **yields**. -/
inductive Found where
  /-- The answers to queries as they are. -/
  | answers (responses : List Json)
  /-- The outcome of a search. -/
  | outcome (outcome : Outcome)
deriving DecidableEq

namespace Work

/-- The queries that are sent. -/
def queries : Work → List Query
  | .execute queries => queries
  | .search plan _ _ => plan.queries

/-- What the answers to the queries yield. -/
def finish : Work → List Json → Except SearchError Found
  | .execute _, responses => .ok (.answers responses)
  | .search plan chosen fallback, responses =>
    (plan.resolve responses chosen fallback).map .outcome

end Work

/-- A **request** under way. -/
structure Request where
  /-- What the request is for. -/
  work : Work
  /-- Whether its queries have been sent. -/
  sent : Bool := false

/-- The end of a request: nothing if it was superseded, and else what it yields or why it failed. -/
structure Delivery where
  /-- The token of the request. -/
  token : Nat
  /-- What came of the request. -/
  result : Except SearchError (Option Found)

/-- A **search session**. -/
structure Session where
  /-- The newest token. -/
  latest : Nat := 0
  /-- The requests under way, by token. -/
  underway : SortedMap Nat Request := ∅

/-- What **happens** in a session. -/
inductive SessionEvent where
  /-- A token is issued without a request. -/
  | begin
  /-- A request is made and gets a token. -/
  | issue (work : Work)
  /-- The queries of a request are sent. -/
  | send (token : Nat)
  /-- The answer to the queries of a request arrives, or a failure. -/
  | receive (token : Nat) (answer : Except SearchError (List Json))
  /-- A request is abandoned. -/
  | abandon (token : Nat)

namespace Session

/-- Whether a token is the newest. -/
def isCurrent (s : Session) (token : Nat) : Bool := s.latest == token

/-- What comes of a request whose answer arrives now: nothing if it has been superseded. -/
def deliver (s : Session) (token : Nat) (work : Work) (answer : Except SearchError (List Json)) :
    Except SearchError (Option Found) :=
  if s.isCurrent token then (answer.bind work.finish).map some else .ok none

/-- **One event** in a session: the session after it, and the delivery if a request comes to its
end. -/
def step (s : Session) : SessionEvent → Session × Option Delivery
  | .begin => ({ s with latest := s.latest + 1 }, none)
  | .issue work =>
    let token := s.latest + 1
    ({ latest := token, underway := s.underway.insert token { work := work } }, none)
  | .send token =>
    match s.underway.get? token with
    | some r => ({ s with underway := s.underway.insert token { r with sent := true } }, none)
    | none => (s, none)
  | .receive token answer =>
    match s.underway.get? token with
    | some ⟨work, true⟩ =>
      ({ s with underway := s.underway.erase token }, some ⟨token, s.deliver token work answer⟩)
    | _ => (s, none)
  | .abandon token => ({ s with underway := s.underway.erase token }, none)

/-- A session after events in turn, with the deliveries in the order in which they were made. -/
def run (s : Session) : List SessionEvent → Session × List Delivery
  | [] => (s, [])
  | e :: rest =>
    let (s, delivery) := s.step e
    let (s, more) := run s rest
    (s, delivery.toList ++ more)

end Session

end ObjectMapping
