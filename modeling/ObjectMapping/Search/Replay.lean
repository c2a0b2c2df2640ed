import ObjectMapping.Search.ResultSet

/-! # A query service that replays answers

A stand-in for a query service: it gives the answers that were queued, one per batch, and keeps the
batches that it was sent. -/

namespace ObjectMapping

/-- A **query service that replays** queued answers. -/
structure ReplayService where
  /-- The answers to come, the next one first. -/
  queue : List (Except SearchError (List Json)) := []
  /-- The batches received so far, in order. -/
  batches : List (List Query) := []

namespace ReplayService

/-- The service with one more answer queued. -/
def enqueue (s : ReplayService) (answer : Except SearchError (List Json)) : ReplayService :=
  { s with queue := s.queue ++ [answer] }

/-- The answer to a batch; with an empty queue the service fails. -/
def execute (s : ReplayService) (batch : List Query) :
    Except SearchError (List Json) × ReplayService :=
  let s := { s with batches := s.batches ++ [batch] }
  match s.queue with
  | answer :: rest => (answer, { s with queue := rest })
  | [] => (.error (.transport "no response queued"), s)

end ReplayService

end ObjectMapping
