import ObjectMapping.Proofs.Failure
import ObjectMapping.Proofs.Search.Layout
import ObjectMapping.Proofs.Search.References
import ObjectMapping.Search.Outcome

/-! # Reading the answers to a plan

A service answers a batch of queries with a list of JSON values of any form. They are read as an
outcome when there is one for each query and each of them fits the query at its position, and only
then. Each part of the outcome is read from one position, so another answer there leaves all other
parts as they are, although every answer may stand under the same name.

* **`ResultSet.read_eq_ok_iff`** — what an answer says.
* **`Plan.read_eq_ok_iff`** — the outcome of a search is put together from the answers at the
  positions of the plan.
* **`Planner.read_plan`** — what the answers to the queries of a plan amount to. -/

namespace ObjectMapping

/-! ### Single answers -/

/-- A hit **shows** an object as the service sent it: it is for the reference that is described, and
carries no marks. -/
def Hit.Shows (data : Json) (h : Hit) : Prop :=
  ∃ r : ObjectRef, r.DescribedBy data ∧ h = { object := r, data := data }

/-- A hit is read from what describes its object. -/
theorem Hit.ofJson_eq_ok_iff {data : Json} {h : Hit} : Hit.ofJson data = .ok h ↔ Shows data h := by
  unfold Hit.ofJson Shows
  simp only [← ObjectRef.ofJson?_eq_some_iff]
  cases ObjectRef.ofJson? data with
  | none => simp
  | some r => simp [eq_comm]

/-- What the service says of a type **fits** a kind of answer. -/
def ResultKind.FitBy (body : Json) : ResultKind → Prop
  | .values => ∃ values, body.get? "values" = some (.arr values) ∧
      ∀ v ∈ values, ∃ r : ObjectRef, r.DescribedBy v
  | .ids => ∃ items, body.get? "ids" = some (.arr items) ∧ ∀ item ∈ items, ∃ n, item.IsInt64 n
  | .count => ∃ total, body.HasNat64 "count" total

/-- An answer **fits** a query: it has a member with the name of the type, which fits the kind. -/
def Query.FitBy (q : Query) (response : Json) : Prop :=
  ∃ body, response.get? q.type.text = some body ∧ q.kind.FitBy body

namespace ResultSet

/-- The **total** of objects: what the service tells, or else the number of objects sent. -/
inductive TotalOf (body : Json) (values : List Json) : Nat → Prop where
  /-- The service tells the total. -/
  | told {total : Nat} (h : body.HasNat64 "total" total) : TotalOf body values total
  /-- It does not. -/
  | counted (h : ∀ total, ¬ body.HasNat64 "total" total) : TotalOf body values values.length

/-- What the service **says** of a type, as an answer of a kind. -/
inductive SaidBy (body : Json) : ResultKind → ResultSet → Prop where
  /-- Objects and their total. -/
  | objects {values : List Json} {total : Nat} (hvalues : body.get? "values" = some (.arr values))
      (htotal : TotalOf body values total) : SaidBy body .values (.objects values total)
  /-- Numbers. -/
  | numbers {items : List Json} {ids : List Int} (hitems : body.get? "ids" = some (.arr items))
      (hids : List.Forall₂ Json.IsInt64 items ids) : SaidBy body .ids (.numbers ids)
  /-- A count. -/
  | count {total : Nat} (h : body.HasNat64 "count" total) : SaidBy body .count (.count total)

/-- An answer **says** in the member with the name of the type what was asked for. -/
def AnsweredBy (q : Query) (response : Json) (set : ResultSet) : Prop :=
  ∃ body, response.get? q.type.text = some body ∧ SaidBy body q.kind set

/-- What an answer **shows**: the hits, the numbers, and the total. -/
inductive Shows : ResultSet → List Hit → List Int → Nat → Prop where
  /-- A hit for each object that is described. -/
  | objects {values : List Json} {total : Nat} {hits : List Hit}
      (h : List.Forall₂ Hit.Shows values hits) : Shows (.objects values total) hits [] total
  /-- The numbers, and how many they are. -/
  | numbers {ids : List Int} : Shows (.numbers ids) [] ids ids.length
  /-- The count. -/
  | count {total : Nat} : Shows (.count total) [] [] total

/-- A number is read from an integer of 64 bits. -/
theorem readId_eq_ok_iff {type : TypeName} {j : Json} {n : Int} :
    readId type j = .ok n ↔ j.IsInt64 n := by
  unfold readId
  rw [← Json.int64?_eq_some_iff]
  cases j.int64? with
  | none => simp
  | some i => simp

/-- The total that is read is that of the objects. -/
theorem totalOf_iff {body : Json} {values : List Json} {total : Nat} :
    TotalOf body values total ↔
      ((body.get? "total").bind Json.nat64?).getD values.length = total := by
  cases htold : (body.get? "total").bind Json.nat64? with
  | none =>
    have hnone : ∀ n, ¬ body.HasNat64 "total" n := by
      intro n hn
      rw [Json.bind_nat64?_eq_some_iff.2 hn] at htold
      cases htold
    constructor
    · rintro (h | -)
      · exact absurd h (hnone _)
      · rfl
    · rintro rfl
      exact .counted hnone
  | some n =>
    have hn := Json.bind_nat64?_eq_some_iff.1 htold
    constructor
    · rintro (h | h)
      · rw [Json.bind_nat64?_eq_some_iff.2 h] at htold
        exact (Option.some.inj htold).symm
      · exact absurd hn (h n)
    · rintro rfl
      exact .told hn

/-- What is said of a type is read, and nothing else. -/
theorem ofBody_eq_ok_iff {type : TypeName} {body : Json} {kind : ResultKind} {set : ResultSet} :
    ofBody type body kind = .ok set ↔ SaidBy body kind set := by
  constructor
  · intro h
    unfold ofBody at h
    split at h
    · split at h
      · next values hvalues =>
        cases h
        exact .objects (Json.bind_items?_eq_some_iff.1 hvalues) (totalOf_iff.2 rfl)
      · cases h
    · split at h
      · next items hitems =>
        obtain ⟨ids, hids, rfl⟩ := map_eq_ok_iff.1 h
        have hids := (mapM_eq_ok_iff.1 hids).imp fun _ _ => readId_eq_ok_iff.1
        exact .numbers (Json.bind_items?_eq_some_iff.1 hitems) hids
      · cases h
    · split at h
      · next total htotal =>
        cases h
        exact .count (Json.bind_nat64?_eq_some_iff.1 htotal)
      · cases h
  · intro h
    cases h with
    | objects hvalues htotal =>
      rw [ofBody, Json.bind_items?_eq_some_iff.2 hvalues, ← totalOf_iff.1 htotal]
    | @numbers items ids hitems hids =>
      have hread : items.mapM (readId type) = .ok ids :=
        mapM_eq_ok_iff.2 (hids.imp fun _ _ => readId_eq_ok_iff.2)
      rw [ofBody, Json.bind_items?_eq_some_iff.2 hitems]
      exact map_eq_ok_iff.2 ⟨_, hread, rfl⟩
    | count h => rw [ofBody, Json.bind_nat64?_eq_some_iff.2 h]

/-- **What an answer says is read**, and nothing else. -/
theorem read_eq_ok_iff {q : Query} {response : Json} {set : ResultSet} :
    read q response = .ok set ↔ AnsweredBy q response set := by
  unfold read AnsweredBy
  cases response.get? q.type.text with
  | none => simp
  | some body => simp [ofBody_eq_ok_iff]

/-- An answer is not refused for the number of answers. -/
theorem read_ne_wrongNumber {q : Query} {response : Json} {expected got : Nat} :
    read q response ≠ .error (.malformed (.wrongNumber expected got)) := by
  intro h
  unfold read ofBody at h
  -- each cause that is given here names the type of the query
  split at h
  · split at h
    · split at h <;> cases h
    · split at h
      · obtain ⟨item, -, hitem⟩ := exists_error_of_mapM (map_eq_error_iff.1 h)
        unfold readId at hitem
        split at hitem <;> cases hitem
      · cases h
    · split at h <;> cases h
  · cases h

/-- What an answer shows does not depend on how it is read. -/
theorem Shows.unique {set : ResultSet} {hits hits' : List Hit} {ids ids' : List Int}
    {total total' : Nat} (h : set.Shows hits ids total) (h' : set.Shows hits' ids' total') :
    hits' = hits ∧ ids' = ids ∧ total' = total := by
  cases h with
  | objects h =>
    cases h' with | objects h' =>
    have hhits := mapM_eq_ok_iff.2 (h.imp fun _ _ => Hit.ofJson_eq_ok_iff.2)
    have hhits' := mapM_eq_ok_iff.2 (h'.imp fun _ _ => Hit.ofJson_eq_ok_iff.2)
    exact ⟨Except.ok.inj (hhits'.symm.trans hhits), rfl, rfl⟩
  | numbers =>
    cases h'
    exact ⟨rfl, rfl, rfl⟩
  | count =>
    cases h'
    exact ⟨rfl, rfl, rfl⟩

/-- Objects can be shown exactly when each of them is described. -/
theorem exists_shows_iff {values : List Json} :
    (∃ hits, List.Forall₂ Hit.Shows values hits) ↔
      ∀ v ∈ values, ∃ r : ObjectRef, r.DescribedBy v := by
  rw [exists_forall₂_iff]
  refine forall₂_congr fun v _ => ?_
  constructor
  · rintro ⟨h, r, hr, -⟩
    exact ⟨r, hr⟩
  · rintro ⟨r, hr⟩
    exact ⟨_, r, hr, rfl⟩

/-- A kind is fitted exactly by what says an answer that shows something. -/
theorem fitBy_iff {kind : ResultKind} {body : Json} :
    kind.FitBy body ↔ ∃ set, SaidBy body kind set ∧ ∃ hits ids total, set.Shows hits ids total := by
  constructor
  · intro h
    cases kind with
    | values =>
      obtain ⟨values, hvalues, hdescribed⟩ := h
      obtain ⟨hits, hhits⟩ := exists_shows_iff.2 hdescribed
      exact ⟨_, .objects hvalues (totalOf_iff.2 rfl), hits, [], _, .objects hhits⟩
    | ids =>
      obtain ⟨items, hitems, hids⟩ := h
      obtain ⟨ids, hids⟩ := exists_forall₂_iff.2 hids
      exact ⟨_, .numbers hitems hids, [], ids, _, .numbers⟩
    | count =>
      obtain ⟨total, htotal⟩ := h
      exact ⟨_, .count htotal, [], [], total, .count⟩
  · rintro ⟨set, hsaid, hits, ids, total, hshows⟩
    cases hsaid with
    | objects hvalues htotal =>
      cases hshows with | objects hhits =>
      exact ⟨_, hvalues, exists_shows_iff.1 ⟨_, hhits⟩⟩
    | numbers hitems hids => exact ⟨_, hitems, exists_forall₂_iff.1 ⟨_, hids⟩⟩
    | count htotal => exact ⟨_, htotal⟩

end ResultSet

/-- An answer fits a query exactly when it says what was asked for, and that shows something. -/
theorem Query.fitBy_iff {q : Query} {response : Json} :
    q.FitBy response ↔ ∃ set, ResultSet.AnsweredBy q response set ∧
      ∃ hits ids total, set.Shows hits ids total := by
  constructor
  · rintro ⟨body, hbody, hfit⟩
    obtain ⟨set, hsaid, hshows⟩ := ResultSet.fitBy_iff.1 hfit
    exact ⟨set, ⟨body, hbody, hsaid⟩, hshows⟩
  · rintro ⟨set, ⟨body, hbody, hsaid⟩, hshows⟩
    exact ⟨body, hbody, ResultSet.fitBy_iff.2 ⟨set, hsaid, hshows⟩⟩

/-! ### Outcomes -/

/-- The objects of an outcome that are related to the base in a way. -/
def Outcome.relation (o : Outcome) : Relevance → SortedSet Int
  | .relevant => o.related
  | .parent => o.parents
  | .child => o.children
  | .owned => ∅

/-- The outcome that an answer shows beside what is related to the base. -/
def ResultSet.outcome (related parents children : SortedSet Int) :
    ResultSet → Except SearchError Outcome
  | .objects values total =>
    (values.mapM Hit.ofJson).map fun hits => { hits, total, related, parents, children }
  | .numbers ids => .ok { ids, total := ids.length, related, parents, children }
  | .count total => .ok { total, related, parents, children }

/-- The outcome has what the answer shows. -/
theorem ResultSet.outcome_eq_ok_iff {related parents children : SortedSet Int} {set : ResultSet}
    {o : Outcome} : set.outcome related parents children = .ok o ↔
      o.related = related ∧ o.parents = parents ∧ o.children = children ∧
        set.Shows o.hits o.ids o.total := by
  obtain ⟨hits, ids, total, related', parents', children'⟩ := o
  constructor
  · intro h
    cases set with
    | objects values n =>
      obtain ⟨hits, hhits, h⟩ := map_eq_ok_iff.1 h
      cases h
      have hhits := (mapM_eq_ok_iff.1 hhits).imp fun _ _ => Hit.ofJson_eq_ok_iff.1
      exact ⟨rfl, rfl, rfl, .objects hhits⟩
    | numbers ids =>
      cases h
      exact ⟨rfl, rfl, rfl, .numbers⟩
    | count n =>
      cases h
      exact ⟨rfl, rfl, rfl, .count⟩
  · rintro ⟨rfl, rfl, rfl, hshows⟩
    dsimp only at hshows
    cases hshows with
    | objects hhits =>
      have hhits := mapM_eq_ok_iff.2 (hhits.imp fun _ _ => Hit.ofJson_eq_ok_iff.2)
      exact map_eq_ok_iff.2 ⟨hits, hhits, rfl⟩
    | numbers => rfl
    | count => rfl

/-- An object is not refused for the number of answers. -/
theorem ResultSet.outcome_ne_wrongNumber {related parents children : SortedSet Int}
    {set : ResultSet} {expected got : Nat} :
    set.outcome related parents children ≠ .error (.malformed (.wrongNumber expected got)) := by
  intro h
  cases set with
  | objects values total =>
    obtain ⟨data, -, hdata⟩ := exists_error_of_mapM (map_eq_error_iff.1 h)
    unfold Hit.ofJson at hdata
    split at hdata <;> cases hdata
  | numbers ids => cases h
  | count total => cases h

namespace Plan

variable {p : Plan} {responses : List Json} {o : Outcome}

/-- An answer for each query is read position by position. -/
theorem read_eq (hlength : responses.length = p.queries.length) : p.read responses = (do
    let related ← p.idsAt responses p.positions.related
    let parents ← p.idsAt responses p.positions.parent
    let children ← p.idsAt responses p.positions.child
    let set ← p.answerAt responses p.positions.primary
    set.outcome related parents children) := by
  unfold read
  rw [if_neg (not_not.2 hlength)]
  refine bind_congr fun related => bind_congr fun parents => bind_congr fun children => ?_
  refine bind_congr fun set => ?_
  cases set with
  | objects values total =>
    show (values.mapM Hit.ofJson >>= _) = (values.mapM Hit.ofJson).map _
    cases values.mapM Hit.ofJson <;> rfl
  | numbers ids => rfl
  | count total => rfl

/-- **An outcome is put together from the answers at the positions of the plan.** -/
theorem read_eq_ok_iff : p.read responses = .ok o ↔
    responses.length = p.queries.length ∧
    (∀ relevance, p.idsAt responses (p.positions.ofRelevance? relevance) =
      .ok (o.relation relevance)) ∧
    ∃ set, p.answerAt responses p.positions.primary = .ok set ∧
      set.Shows o.hits o.ids o.total := by
  by_cases hlength : responses.length = p.queries.length
  · rw [read_eq hlength]
    constructor
    · intro h
      -- each step of the reading succeeds and hands on what it has read
      obtain ⟨related, hrelated, h⟩ := bind_eq_ok_iff.1 h
      obtain ⟨parents, hparents, h⟩ := bind_eq_ok_iff.1 h
      obtain ⟨children, hchildren, h⟩ := bind_eq_ok_iff.1 h
      obtain ⟨set, hset, h⟩ := bind_eq_ok_iff.1 h
      obtain ⟨rfl, rfl, rfl, hshows⟩ := ResultSet.outcome_eq_ok_iff.1 h
      refine ⟨hlength, fun relevance => ?_, set, hset, hshows⟩
      cases relevance with
      | relevant => exact hrelated
      | parent => exact hparents
      | child => exact hchildren
      | owned => rfl
    · rintro ⟨-, hrelation, set, hset, hshows⟩
      refine bind_eq_ok_iff.2 ⟨_, hrelation .relevant, bind_eq_ok_iff.2 ⟨_, hrelation .parent, ?_⟩⟩
      refine bind_eq_ok_iff.2 ⟨_, hrelation .child, bind_eq_ok_iff.2 ⟨set, hset, ?_⟩⟩
      exact ResultSet.outcome_eq_ok_iff.2 ⟨rfl, rfl, rfl, hshows⟩
  · rw [read, if_pos hlength]
    refine iff_of_false ?_ fun h => hlength h.1
    intro h
    cases h

/-- The answer at a position is read for the query there. -/
theorem answerAt_eq {i : Nat} {q : Query} {response : Json} (hq : p.queries[i]? = some q)
    (hresponse : responses[i]? = some response) :
    p.answerAt responses i = ResultSet.read q response := by
  rw [answerAt, hq, hresponse]

/-- Numbers are read from an answer that says them. -/
theorem idsAt_eq_ok_iff {i : Nat} {q : Query} {response : Json} {set : SortedSet Int}
    (hq : p.queries[i]? = some q) (hresponse : responses[i]? = some response)
    (hkind : q.kind = .ids) :
    p.idsAt responses (some i) = .ok set ↔
      ∃ ids, ResultSet.AnsweredBy q response (.numbers ids) ∧ .ofList ids = set := by
  rw [idsAt, map_eq_ok_iff, answerAt_eq hq hresponse]
  simp only [ResultSet.read_eq_ok_iff]
  constructor
  · rintro ⟨_, ⟨body, hbody, hsaid⟩, rfl⟩
    rw [hkind] at hsaid
    cases hsaid with | numbers hitems hids =>
    exact ⟨_, ⟨body, hbody, by rw [hkind]; exact .numbers hitems hids⟩, rfl⟩
  · rintro ⟨ids, hids, rfl⟩
    exact ⟨_, hids, rfl⟩

/-- Another answer at a position is found there, and nowhere else. -/
theorem answerAt_set_of_ne {i j : Nat} (response : Json) (hne : j ≠ i) :
    p.answerAt (responses.set i response) j = p.answerAt responses j := by
  rw [answerAt, answerAt, List.getElem?_set_ne (Ne.symm hne), List.length_set]

/-- What is related to the base is the same with another answer at the position of another query. -/
theorem idsAt_set_of_ne {i : Nat} {position : Option Nat} (response : Json)
    (hne : position ≠ some i) :
    p.idsAt (responses.set i response) position = p.idsAt responses position := by
  cases position with
  | none => rfl
  | some j =>
    have hji : j ≠ i := fun h => hne (congrArg some h)
    rw [idsAt, idsAt, answerAt_set_of_ne response hji]

end Plan

namespace Positions

variable {positions : Positions} {i : Nat}

/-- A position is given when it is that of the objects or of what is related in a way. -/
theorem mem_all_iff : i ∈ positions.all ↔
    i = positions.primary ∨ ∃ relevance, positions.ofRelevance? relevance = some i := by
  simp only [all, List.mem_cons, List.mem_append, Option.mem_toList]
  refine or_congr_right ⟨?_, ?_⟩
  · rintro ((h | h) | h)
    · exact ⟨.relevant, h⟩
    · exact ⟨.parent, h⟩
    · exact ⟨.child, h⟩
  · rintro ⟨relevance, h⟩
    cases relevance with
    | relevant => exact .inl (.inl h)
    | parent => exact .inl (.inr h)
    | child => exact .inr h
    | owned => cases h

end Positions

namespace Planner

variable {p : Planner} {s : SearchSpec} {responses : List Json} {o : Outcome}

/-- The objects themselves are asked for first. -/
theorem primary_plan (p : Planner) (s : SearchSpec) : (p.plan s).positions.primary = 0 := by
  obtain ⟨-, hpos, -⟩ | ⟨_, -, -, hpos, -⟩ | ⟨_, -, -, hpos, -⟩ := p.plan_cases s
  all_goals rw [hpos]

/-- A position is that of a query. -/
theorem exists_query (p : Planner) (s : SearchSpec) {i : Nat}
    (hi : i ∈ (p.plan s).positions.all) : ∃ q, (p.plan s).queries[i]? = some q := by
  rw [all_positions, List.mem_range] at hi
  exact ⟨_, List.getElem?_eq_getElem hi⟩

/-- At a position there is an answer, if there are as many as queries. -/
theorem exists_response {i : Nat} (hi : i ∈ (p.plan s).positions.all)
    (hlength : responses.length = (p.plan s).queries.length) :
    ∃ response, responses[i]? = some response := by
  rw [all_positions, List.mem_range, ← hlength] at hi
  exact ⟨_, List.getElem?_eq_getElem hi⟩

/-- At a position of a plan an answer is found, if there are as many as queries. -/
theorem answerAt_ne_wrongNumber {i expected got : Nat} (hi : i ∈ (p.plan s).positions.all)
    (hlength : responses.length = (p.plan s).queries.length) :
    (p.plan s).answerAt responses i ≠ .error (.malformed (.wrongNumber expected got)) := by
  obtain ⟨q, hq⟩ := p.exists_query s hi
  obtain ⟨response, hresponse⟩ := exists_response hi hlength
  rw [Plan.answerAt_eq hq hresponse]
  exact ResultSet.read_ne_wrongNumber

/-- So what is related to the base is not refused for the number of answers either. -/
theorem idsAt_ne_wrongNumber {expected got : Nat} (relevance : Relevance)
    (hlength : responses.length = (p.plan s).queries.length) :
    (p.plan s).idsAt responses ((p.plan s).positions.ofRelevance? relevance) ≠
      .error (.malformed (.wrongNumber expected got)) := by
  intro h
  cases hi : (p.plan s).positions.ofRelevance? relevance with
  | none =>
    rw [hi] at h
    cases h
  | some i =>
    have hmem : i ∈ (p.plan s).positions.all := Positions.mem_all_iff.2 (.inr ⟨relevance, hi⟩)
    rw [hi, Plan.idsAt, map_eq_error_iff] at h
    exact answerAt_ne_wrongNumber hmem hlength h

/-- No answer is looked up where there is none: the answers to a plan are refused for their number
exactly when it is not that of the queries. -/
theorem read_eq_wrongNumber_iff {expected got : Nat} :
    (p.plan s).read responses = .error (.malformed (.wrongNumber expected got)) ↔
      expected = (p.plan s).queries.length ∧ got = responses.length ∧ got ≠ expected := by
  by_cases hlength : responses.length = (p.plan s).queries.length
  · have hright : ¬ (expected = (p.plan s).queries.length ∧ got = responses.length ∧
        got ≠ expected) := by
      rintro ⟨rfl, rfl, hne⟩
      exact hne hlength
    refine iff_of_false (fun h => ?_) hright
    -- none of the steps of the reading is refused for the number
    rw [Plan.read_eq hlength] at h
    obtain h | ⟨related, -, h⟩ := bind_eq_error_iff.1 h
    · exact idsAt_ne_wrongNumber .relevant hlength h
    obtain h | ⟨parents, -, h⟩ := bind_eq_error_iff.1 h
    · exact idsAt_ne_wrongNumber .parent hlength h
    obtain h | ⟨children, -, h⟩ := bind_eq_error_iff.1 h
    · exact idsAt_ne_wrongNumber .child hlength h
    obtain h | ⟨set, -, h⟩ := bind_eq_error_iff.1 h
    · exact answerAt_ne_wrongNumber List.mem_cons_self hlength h
    · exact ResultSet.outcome_ne_wrongNumber h
  · have hread : (p.plan s).read responses =
        .error (.malformed (.wrongNumber (p.plan s).queries.length responses.length)) := by
      rw [Plan.read, if_pos hlength]
      rfl
    rw [hread]
    constructor
    · intro h
      cases h
      exact ⟨rfl, rfl, hlength⟩
    · rintro ⟨rfl, rfl, -⟩
      rfl

/-- What is related to the base is read from the answer at its position. -/
theorem idsAt_plan {relevance : Relevance} {i : Nat} {set : SortedSet Int}
    (hi : (p.plan s).positions.ofRelevance? relevance = some i)
    (hlength : responses.length = (p.plan s).queries.length) :
    (p.plan s).idsAt responses (some i) = .ok set ↔ ∃ q response ids,
      (p.plan s).queries[i]? = some q ∧ responses[i]? = some response ∧
        ResultSet.AnsweredBy q response (.numbers ids) ∧ .ofList ids = set := by
  obtain ⟨base, -, hq⟩ := getElem?_queries hi
  obtain ⟨response, hresponse⟩ := exists_response (Positions.mem_all_iff.2 (.inr ⟨_, hi⟩)) hlength
  rw [Plan.idsAt_eq_ok_iff hq hresponse rfl]
  constructor
  · rintro ⟨ids, hids, hset⟩
    exact ⟨_, response, ids, hq, hresponse, hids, hset⟩
  · rintro ⟨q', response', ids, hq', hresponse', hids, hset⟩
    cases hq.symm.trans hq'
    cases hresponse.symm.trans hresponse'
    exact ⟨ids, hids, hset⟩

/-- Where answers are read each of them fits its query. -/
theorem fitBy_of_read (h : (p.plan s).read responses = .ok o) {i : Nat} {q : Query}
    {response : Json} (hq : (p.plan s).queries[i]? = some q)
    (hresponse : responses[i]? = some response) : q.FitBy response := by
  obtain ⟨hlength, hrelation, set, hset, hshows⟩ := Plan.read_eq_ok_iff.1 h
  -- as every query has a position, each answer has been read as one thing or another
  obtain ⟨hi, -⟩ := List.getElem?_eq_some_iff.1 hq
  rw [← List.mem_range, ← all_positions, Positions.mem_all_iff] at hi
  obtain rfl | ⟨relevance, hi⟩ := hi
  · rw [Plan.answerAt_eq hq hresponse] at hset
    exact Query.fitBy_iff.2 ⟨set, ResultSet.read_eq_ok_iff.1 hset, _, _, _, hshows⟩
  · have hids := hrelation relevance
    rw [hi] at hids
    obtain ⟨q', response', ids, hq', hresponse', hids, -⟩ := (idsAt_plan hi hlength).1 hids
    cases hq.symm.trans hq'
    cases hresponse.symm.trans hresponse'
    exact Query.fitBy_iff.2 ⟨_, hids, _, _, _, .numbers⟩

/-- Where each answer fits its query the answers are read. -/
theorem exists_read_of_fitBy (hlength : responses.length = (p.plan s).queries.length)
    (hfit : ∀ (i : Nat) q response, (p.plan s).queries[i]? = some q →
      responses[i]? = some response → q.FitBy response) :
    ∃ o, (p.plan s).read responses = .ok o := by
  -- at each position there is an answer, and the outcome is put together from them
  have hanswer : ∀ i ∈ (p.plan s).positions.all, ∃ set,
      (p.plan s).answerAt responses i = .ok set ∧ ∃ hits ids total, set.Shows hits ids total := by
    intro i hi
    obtain ⟨q, hq⟩ := p.exists_query s hi
    obtain ⟨response, hresponse⟩ := exists_response hi hlength
    obtain ⟨set, hset, hshows⟩ := Query.fitBy_iff.1 (hfit i q response hq hresponse)
    exact ⟨set, by rw [Plan.answerAt_eq hq hresponse, ResultSet.read_eq_ok_iff.2 hset], hshows⟩
  have hrelation : ∀ relevance, ∃ set, (p.plan s).idsAt responses
      ((p.plan s).positions.ofRelevance? relevance) = .ok set := by
    intro relevance
    cases hi : (p.plan s).positions.ofRelevance? relevance with
    | none => exact ⟨∅, rfl⟩
    | some i =>
      obtain ⟨set, hset, -⟩ := hanswer i (Positions.mem_all_iff.2 (.inr ⟨_, hi⟩))
      exact ⟨_, map_eq_ok_iff.2 ⟨set, hset, rfl⟩⟩
  obtain ⟨related, hrelated⟩ := hrelation .relevant
  obtain ⟨parents, hparents⟩ := hrelation .parent
  obtain ⟨children, hchildren⟩ := hrelation .child
  obtain ⟨set, hset, hits, ids, total, hshows⟩ := hanswer _ List.mem_cons_self
  refine ⟨{ hits, ids, total, related, parents, children }, Plan.read_eq_ok_iff.2
    ⟨hlength, fun relevance => ?_, set, hset, hshows⟩⟩
  cases relevance with
  | relevant => exact hrelated
  | parent => exact hparents
  | child => exact hchildren
  | owned => rfl

/-- **The answers to a plan are read exactly when each of them fits its query.** -/
theorem exists_read_iff :
    (∃ o, (p.plan s).read responses = .ok o) ↔
      List.Forall₂ Query.FitBy (p.plan s).queries responses := by
  rw [forall₂_iff_getElem?]
  constructor
  · rintro ⟨o, h⟩
    exact ⟨(Plan.read_eq_ok_iff.1 h).1, fun i q response => fitBy_of_read h⟩
  · rintro ⟨hlength, hfit⟩
    exact exists_read_of_fitBy hlength hfit

end Planner

/-! ### What an outcome tells -/

namespace Plan

/-- An outcome **tells** what the answers to a plan say, each at its position. -/
structure TellsFrom (plan : Plan) (responses : List Json) (o : Outcome) : Prop where
  /-- The numbers of what is related to the base in a way are those in the answer at the position
  for it. -/
  relation : ∀ relevance i, plan.positions.ofRelevance? relevance = some i →
    ∃ q response ids, plan.queries[i]? = some q ∧ responses[i]? = some response ∧
      ResultSet.AnsweredBy q response (.numbers ids) ∧ ∀ n, n ∈ o.relation relevance ↔ n ∈ ids
  /-- Without a position for it nothing is related to the base in a way. -/
  noRelation : ∀ relevance, plan.positions.ofRelevance? relevance = none →
    o.relation relevance = ∅
  /-- The hits, the numbers and the total are those in the first answer. -/
  objects : ∃ q response set, plan.queries[0]? = some q ∧ responses[0]? = some response ∧
    ResultSet.AnsweredBy q response set ∧ set.Shows o.hits o.ids o.total

/-- Two outcomes differ at most in what comes from a **position**. -/
structure AgreeBeside (plan : Plan) (i : Nat) (o o' : Outcome) : Prop where
  /-- What is related to the base in a way comes from the position for it. -/
  relation : ∀ relevance, plan.positions.ofRelevance? relevance ≠ some i →
    o'.relation relevance = o.relation relevance
  /-- The hits, the numbers and the total come from the first position. -/
  objects : i ≠ 0 → o'.hits = o.hits ∧ o'.ids = o.ids ∧ o'.total = o.total

end Plan

namespace Planner

variable {p : Planner} {s : SearchSpec} {responses : List Json} {o o' : Outcome}

/-- An outcome that is read tells what the answers say. -/
theorem tellsFrom_of_read (h : (p.plan s).read responses = .ok o) :
    (p.plan s).TellsFrom responses o := by
  obtain ⟨hlength, hrelation, set, hset, hshows⟩ := Plan.read_eq_ok_iff.1 h
  have hprimary : (p.plan s).positions.primary ∈ (p.plan s).positions.all := List.mem_cons_self
  obtain ⟨q, hq⟩ := p.exists_query s hprimary
  obtain ⟨response, hresponse⟩ := exists_response hprimary hlength
  rw [Plan.answerAt_eq hq hresponse, ResultSet.read_eq_ok_iff] at hset
  rw [primary_plan] at hq hresponse
  refine ⟨fun relevance i hi => ?_, fun relevance hi => ?_,
    q, response, set, hq, hresponse, hset, hshows⟩
  · have hids := hrelation relevance
    rw [hi] at hids
    obtain ⟨q, response, ids, hq, hresponse, hids, hset⟩ := (idsAt_plan hi hlength).1 hids
    refine ⟨q, response, ids, hq, hresponse, hids, fun n => ?_⟩
    rw [← hset, SortedSet.mem_ofList]
  · have hids := hrelation relevance
    rw [hi] at hids
    exact (Except.ok.inj hids).symm

/-- Outcomes read from answers that differ at a position differ at most in what comes from it. -/
theorem agreeBeside_of_read {i : Nat} {response : Json} (h : (p.plan s).read responses = .ok o)
    (h' : (p.plan s).read (responses.set i response) = .ok o') :
    (p.plan s).AgreeBeside i o o' := by
  obtain ⟨-, hrelation, set, hset, hshows⟩ := Plan.read_eq_ok_iff.1 h
  obtain ⟨-, hrelation', set', hset', hshows'⟩ := Plan.read_eq_ok_iff.1 h'
  constructor
  · intro relevance hne
    have hids := hrelation' relevance
    rw [Plan.idsAt_set_of_ne response hne, hrelation relevance] at hids
    exact (Except.ok.inj hids).symm
  · intro hne
    rw [primary_plan] at hset hset'
    rw [Plan.answerAt_set_of_ne response (Ne.symm hne), hset] at hset'
    cases hset'
    exact hshows.unique hshows'

/-- With another answer that fits its query the answers are still read. -/
theorem exists_read_set {i : Nat} {q : Query} {response : Json}
    (h : (p.plan s).read responses = .ok o) (hq : (p.plan s).queries[i]? = some q)
    (hfit : q.FitBy response) : ∃ o', (p.plan s).read (responses.set i response) = .ok o' := by
  have hlength := (Plan.read_eq_ok_iff.1 h).1
  have hset : (responses.set i response).length = (p.plan s).queries.length := by
    rw [List.length_set, hlength]
  refine exists_read_of_fitBy hset fun j q' response' hq' hresponse' => ?_
  -- the answer at the position fits as it is told to, and those beside it as they did
  by_cases hji : i = j
  · subst hji
    cases hq.symm.trans hq'
    obtain ⟨hi, -⟩ := List.getElem?_eq_some_iff.1 hq
    rw [← hlength] at hi
    rw [List.getElem?_set_self hi] at hresponse'
    cases hresponse'
    exact hfit
  · rw [List.getElem?_set_ne hji] at hresponse'
    exact fitBy_of_read h hq' hresponse'

/-- **What the answers to the queries of a plan amount to**, whatever is searched for and whatever
JSON the service sends. Each position of the plan is that of a query, and the answers are refused
for their number exactly when there are not as many as queries. They are read exactly when each fits
its query, and the outcome tells what they say, each at its position. With another answer at a
position that fits there, only that part of the outcome may differ which comes from the
position. -/
theorem read_plan (p : Planner) (s : SearchSpec) (responses : List Json) :
    (∀ i ∈ (p.plan s).positions.all, i < (p.plan s).queries.length) ∧
    (∀ expected got,
      (p.plan s).read responses = .error (.malformed (.wrongNumber expected got)) ↔
        expected = (p.plan s).queries.length ∧ got = responses.length ∧ got ≠ expected) ∧
    ((∃ o, (p.plan s).read responses = .ok o) ↔
      List.Forall₂ Query.FitBy (p.plan s).queries responses) ∧
    ∀ o, (p.plan s).read responses = .ok o →
      (p.plan s).TellsFrom responses o ∧
      ∀ i q response, (p.plan s).queries[i]? = some q → q.FitBy response →
        ∃ o', (p.plan s).read (responses.set i response) = .ok o' ∧
          (p.plan s).AgreeBeside i o o' := by
  refine ⟨fun i hi => ?_, fun _ _ => read_eq_wrongNumber_iff, exists_read_iff, fun o h =>
    ⟨tellsFrom_of_read h, fun i q response hq hfit => ?_⟩⟩
  · rwa [all_positions, List.mem_range] at hi
  · obtain ⟨o', h'⟩ := exists_read_set h hq hfit
    exact ⟨o', h', agreeBeside_of_read h h'⟩

/-- All three answers stand under one name. With another one for the children of the base nothing
but the children changes. -/
theorem read_plan_under_one_name :
    ∃ (p : Planner) (s : SearchSpec) (responses : List Json) (response : Json) (o o' : Outcome),
      (p.plan s).queries.map Query.type = List.replicate 3 ⟨"Program"⟩ ∧
      (p.plan s).read responses = .ok o ∧ (p.plan s).read (responses.set 2 response) = .ok o' ∧
      (p.plan s).TellsFrom responses o ∧ (p.plan s).AgreeBeside 2 o o' ∧
      o.children.toList = [2] ∧ o'.children.toList = [3] := by
  let ids (n : Int) : Json := .obj [("Program", .obj [("ids", .arr [.int n])])]
  let program : Json := .obj [("id", .int 4), ("type", .str "Program")]
  let p : Planner :=
    { catalog := ⟨[], List.nodup_nil⟩, policy := ⟨⟨∅, {}, []⟩, Permissions.all⟩ }
  let s : SearchSpec :=
    { target := ⟨"Program"⟩, base := some (.plain 1 ⟨"Program"⟩), mega := true }
  let responses : List Json :=
    [.obj [("Program", .obj [("values", .arr [program])])], ids 1, ids 2]
  have hread : ∃ o, (p.plan s).read responses = .ok o ∧ o.children.toList = [2] := ⟨_, rfl, rfl⟩
  obtain ⟨o, hread, hchildren⟩ := hread
  have hread' : ((p.plan s).read (responses.set 2 (ids 3))).map (fun o => o.children.toList) =
      .ok [3] := rfl
  have hfit : Query.FitBy (p.relationQuery s (.plain 1 ⟨"Program"⟩) .child) (ids 3) :=
    ⟨_, rfl, [.int 3], rfl, fun item hitem => ⟨3, 3, List.mem_singleton.1 hitem, rfl⟩⟩
  obtain ⟨-, -, -, houtcome⟩ := read_plan p s responses
  obtain ⟨htells, hset⟩ := houtcome o hread
  obtain ⟨o', hset, hagree⟩ := hset 2 _ (ids 3) rfl hfit
  rw [hset] at hread'
  exact ⟨p, s, responses, ids 3, o, o', rfl, hread, hset, htells, hagree, hchildren,
    Except.ok.inj hread'⟩

end Planner

end ObjectMapping
