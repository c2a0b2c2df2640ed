import ObjectMapping.Proofs.Ledger.History
import ObjectMapping.Proofs.Ledger.Pending
import ObjectMapping.Proofs.Mapping.Deferred
import ObjectMapping.Proofs.Mapping.Gate

/-! # Committing until it succeeds

A commit makes one call for what is to be mapped and one for what is to be unmapped, and either may
fail without regard to the other. What failed stays in the ledger and is sent again by the next
attempt. What the mapping service has received is told from its receipts, the calls with their
answers (`Receipt`), which a service can keep beside what it does
(`MappingService.keepingReceipts`).

* **`Ledger.commit_sendsOnce`** — what one commit sends, reports and leaves.
* **`Ledger.attempt_sendsUntilDone`** — the same for several attempts: what has succeeded is not
  sent again, and what has not is sent again as it was.
* **`Ledger.each_half_once`** — attempts until both halves have succeeded have each half carried out
  once and leave nothing. -/

namespace ObjectMapping

variable {σ : Type}

/-- A **receipt** of a mapping service: a call that it has received, with its answer. -/
structure Receipt where
  /-- The call. -/
  call : MappingCall
  /-- The answer. -/
  answer : ServiceAnswer

/-- A mapping service that keeps **receipts** of its calls. -/
def MappingService.keepingReceipts (service : MappingService σ) :
    MappingService (σ × List Receipt) where
  map source targets s :=
    let (answer, t) := service.map source targets s.1
    (answer, t, s.2 ++ [⟨.map source targets, answer⟩])
  unmap source targets s :=
    let (answer, t) := service.unmap source targets s.1
    (answer, t, s.2 ++ [⟨.unmap source targets, answer⟩])

/-- The calls for one kind of change that **succeeded**, as receipts tell. -/
def Receipt.successes (change : Change) (receipts : List Receipt) : List MappingCall :=
  (receipts.filter fun r => r.call.change = change ∧ r.answer.isOk).map Receipt.call

/-- The objects for which a commit reports one kind of change as done. -/
def CommitReport.done (r : CommitReport) : Change → List ObjectRef
  | .map => r.mapped
  | .unmap => r.unmapped

namespace Ledger

variable {l left : Ledger} {parent : ObjectRef} {change other : Change} {answer : ServiceAnswer}
  {report : CommitReport} {receipts : List Receipt}

/-! ### One commit -/

/-- The receipts of a commit for one kind of change, given the answer: one of a call with all that
is pending, or none. -/
def receiptsFor (l : Ledger) (parent : ObjectRef) (change : Change) (answer : ServiceAnswer) :
    List Receipt :=
  (l.callsFor parent change).map (⟨·, answer⟩)

/-- What a commit **sends, reports and leaves**, given the answers for the two kinds of change. -/
structure SendsOnce (l : Ledger) (parent : ObjectRef) (answer : Change → ServiceAnswer)
    (report : CommitReport) (left : Ledger) (receipts : List Receipt) : Prop where
  /-- For each kind of change the service has received one call with all intents for it in order,
  or none if there are none, whatever it answered. -/
  receipts_eq : ∀ change, receipts.filter (fun r => r.call.change = change) =
    l.receiptsFor parent change (answer change)
  /-- A kind of change of which nothing is pending does not fail. -/
  answer_of_half : ∀ change, l.half change = [] → answer change = .ok ()
  /-- What has succeeded is reported as done, and of what has failed nothing is. -/
  done_eq : ∀ change, report.done change =
    if (answer change).isOk then (l.half change).map Intent.object else []
  /-- A failure is reported exactly for what has failed. -/
  error?_eq : ∀ change, report.error? change = failure? (answer change)
  /-- What has failed is left, as it was and in its order. -/
  intents_eq : left.intents = l.intents.filter fun i => !(answer i.change).isOk

/-- With receipts, one half of a commit answers as it does without, and there is a receipt for its
call. -/
theorem send_keepingReceipts (l : Ledger) (service : MappingService σ) (parent : ObjectRef)
    (change : Change) (s : σ) (log : List Receipt) :
    l.send service.keepingReceipts parent change (s, log) =
      ((l.send service parent change s).1, (l.send service parent change s).2,
        log ++ l.receiptsFor parent change (l.send service parent change s).1) := by
  unfold send receiptsFor
  by_cases h : l.half change = []
  · simp only [if_pos h, callsFor_of_half_eq_nil h, List.map_nil, List.append_nil]
  · simp only [if_neg h]
    cases change with
    | map => rw [callsFor_map h]; rfl
    | unmap => rw [callsFor_unmap h]; rfl

/-- The call for one kind of change asks for that change. -/
theorem change_of_mem_receiptsFor {r : Receipt} (h : r ∈ l.receiptsFor parent change answer) :
    r.call.change = change := by
  obtain ⟨call, hcall, rfl⟩ := List.mem_map.1 h
  exact (eq_of_mem_callsFor hcall).2.1

/-- The receipts for one kind of change are all for that kind. -/
theorem filter_receiptsFor :
    (l.receiptsFor parent change answer).filter (fun r => r.call.change = other) =
      if change = other then l.receiptsFor parent change answer else [] := by
  by_cases h : change = other
  · rw [if_pos h]
    exact List.filter_eq_self.2 fun _ hr => decide_eq_true ((change_of_mem_receiptsFor hr).trans h)
  · rw [if_neg h]
    refine List.filter_eq_nil_iff.2 fun _ hr => ?_
    rwa [change_of_mem_receiptsFor hr, decide_eq_true_iff]

/-- Where there is nothing to do there is no failure. -/
theorem answer_send_of_half (service : MappingService σ) (s : σ) (h : l.half change = []) :
    (l.send service parent change s).1 = .ok () :=
  congrArg Prod.fst (l.send_of_half_eq_nil service parent s h)

/-- What two answers come to, in whichever order they were given. -/
theorem sendsOnce_of_answers (parent : ObjectRef) (m u : ServiceAnswer) (receipts : List Receipt)
    (hm : l.half .map = [] → m = .ok ()) (hu : l.half .unmap = [] → u = .ok ())
    (hreceipts : receipts = l.receiptsFor parent .map m ++ l.receiptsFor parent .unmap u ∨
      receipts = l.receiptsFor parent .unmap u ++ l.receiptsFor parent .map m) :
    l.SendsOnce parent (fun change => change.pick m u) (l.report m u) (l.settle m u) receipts where
  receipts_eq change := by
    obtain rfl | rfl := hreceipts <;>
      rw [List.filter_append, filter_receiptsFor, filter_receiptsFor] <;>
      cases change <;>
      simp [Change.pick]
  answer_of_half change h := by
    cases change with
    | map => exact hm h
    | unmap => exact hu h
  done_eq change := by
    cases change with
    | map => cases m <;> rfl
    | unmap => cases u <;> rfl
  error?_eq change := by cases change <;> rfl
  intents_eq := l.intents_settle m u

/-- **What one commit sends, reports and leaves.** With receipts it does as it does without,
whichever of its calls takes effect first. -/
theorem commit_sendsOnce (l : Ledger) (service : MappingService σ) (first : Change)
    (parent : ObjectRef) (s : σ) :
    let r := l.commit service first parent s
    ∃ answer receipts,
      (∀ log, l.commit service.keepingReceipts first parent (s, log) =
        (r.1, r.2.1, r.2.2, log ++ receipts)) ∧
      l.SendsOnce parent answer r.1 r.2.1 receipts := by
  cases first with
  | map =>
    let m := l.send service parent .map s
    let u := l.send service parent .unmap m.2
    have honce := l.sendsOnce_of_answers parent m.1 u.1 _ (answer_send_of_half service s)
      (answer_send_of_half service m.2) (.inl rfl)
    refine ⟨_, _, fun log => ?_, honce⟩
    simp only [commit, send_keepingReceipts, Change.opposite, List.append_assoc, m, u]
  | unmap =>
    let u := l.send service parent .unmap s
    let m := l.send service parent .map u.2
    have honce := l.sendsOnce_of_answers parent m.1 u.1 _ (answer_send_of_half service u.2)
      (answer_send_of_half service s) (.inr rfl)
    refine ⟨_, _, fun log => ?_, honce⟩
    simp only [commit, send_keepingReceipts, Change.opposite, List.append_assoc, m, u]

/-! ### Several attempts -/

/-- An **attempt** to commit: which of the two calls takes effect first, and the saved parent. -/
structure Attempt where
  /-- The kind of change whose call takes effect first. -/
  first : Change
  /-- The saved parent. -/
  parent : ObjectRef

/-- **Attempts** to commit, one after the other: what they report, and the ledger and the state of
the service that they leave. -/
def attempt (service : MappingService σ) :
    Ledger → List Attempt → σ → List CommitReport × Ledger × σ
  | l, [], s => ([], l, s)
  | l, a :: attempts, s =>
    let (report, left, s) := l.commit service a.first a.parent s
    let (reports, left, s) := attempt service left attempts s
    (report :: reports, left, s)

/-- What attempts **send, report and leave**. -/
structure SendsUntilDone (l : Ledger) (attempts : List Attempt) (reports : List CommitReport)
    (left : Ledger) (receipts : List Receipt) : Prop where
  /-- Every call is sent with all that was pending for its kind of change at first, in order. -/
  call_mem : ∀ r ∈ receipts, ∃ a ∈ attempts, r.call ∈ l.callsFor a.parent r.call.change
  /-- A kind of change that one of the attempts did not report as failed has been carried out by one
  call, or none if nothing was pending. -/
  successes_of_done : ∀ change, (∃ report ∈ reports, report.error? change = none) →
    ∃ a ∈ attempts, Receipt.successes change receipts = l.callsFor a.parent change
  /-- A kind of change that all attempts reported as failed has not been carried out. -/
  successes_of_failed : ∀ change, (∀ report ∈ reports, report.error? change ≠ none) →
    Receipt.successes change receipts = []
  /-- What all attempts reported as failed is left, as it was and in its order. -/
  intents_eq : left.intents =
    l.intents.filter fun i => ∀ report ∈ reports, report.error? i.change ≠ none

/-- Successes of receipts one behind the other. -/
theorem successes_append (change : Change) (before after : List Receipt) :
    Receipt.successes change (before ++ after) =
      Receipt.successes change before ++ Receipt.successes change after := by
  rw [Receipt.successes, List.filter_append, List.map_append]
  rfl

/-- The call for one kind of change depends on what is pending for it alone. -/
theorem callsFor_of_half (h : left.half change = l.half change) :
    left.callsFor parent change = l.callsFor parent change := by
  unfold half at h
  unfold callsFor
  rw [h]

namespace SendsOnce

variable {answer : Change → ServiceAnswer}

/-- The successes of a commit for one kind of change are its call, if the answer is no failure. -/
theorem successes_eq (h : l.SendsOnce parent answer report left receipts) (change : Change) :
    Receipt.successes change receipts =
      if (answer change).isOk then l.callsFor parent change else [] := by
  have hfilter : receipts.filter (fun r => r.call.change = change ∧ r.answer.isOk) =
      (l.receiptsFor parent change (answer change)).filter fun r => r.answer.isOk := by
    rw [← h.receipts_eq, List.filter_filter]
    exact List.filter_congr fun r _ => by simp [Bool.and_comm]
  -- all receipts for this kind of change have the same answer
  rw [Receipt.successes, hfilter, receiptsFor, List.filter_map, List.map_map]
  show List.map id ((l.callsFor parent change).filter fun _ => (answer change).isOk) = _
  rw [List.map_id]
  cases (answer change).isOk with
  | true => exact List.filter_eq_self.2 fun _ _ => rfl
  | false => exact List.filter_eq_nil_iff.2 fun _ _ => Bool.false_ne_true

/-- Of a kind of change that has succeeded nothing is pending any more, and a kind of change that
has failed is pending as before. -/
theorem half_eq (h : l.SendsOnce parent answer report left receipts) (change : Change) :
    left.half change = if (answer change).isOk then [] else l.half change := by
  rw [half, h.intents_eq, List.filter_filter]
  cases hanswer : (answer change).isOk with
  | true =>
    refine List.filter_eq_nil_iff.2 fun i _ => ?_
    rw [Bool.and_eq_true, decide_eq_true_iff, Bool.not_eq_true']
    rintro ⟨rfl, hfailed⟩
    rw [hanswer] at hfailed
    cases hfailed
  | false =>
    refine List.filter_congr fun i _ => ?_
    by_cases hchange : i.change = change
    · rw [hchange, hanswer, Bool.not_false, Bool.and_true]
    · rw [decide_eq_false hchange, Bool.false_and]

/-- A kind of change is reported as failed exactly when the answer is a failure. -/
theorem error?_eq_none_iff (h : l.SendsOnce parent answer report left receipts) (change : Change) :
    report.error? change = none ↔ (answer change).isOk = true := by
  rw [h.error?_eq, failure?_eq_none_iff]

/-- Each receipt of a commit is of a call with all that is pending for its kind of change. -/
theorem call_mem (h : l.SendsOnce parent answer report left receipts) {r : Receipt}
    (hr : r ∈ receipts) : r.call ∈ l.callsFor parent r.call.change := by
  have hmem : r ∈ receipts.filter fun r' => r'.call.change = r.call.change :=
    List.mem_filter.2 ⟨hr, decide_eq_true rfl⟩
  rw [h.receipts_eq] at hmem
  obtain ⟨call, hcall, heq⟩ := List.mem_map.1 hmem
  rw [← heq] at hcall ⊢
  exact hcall

/-- **One more attempt in front of others**: what the others send is what was pending at first, and
they send nothing of what has succeeded. -/
theorem sendsUntilDone {a : Attempt} {attempts : List Attempt} {reports : List CommitReport}
    {last : Ledger} {more : List Receipt}
    (h : l.SendsOnce a.parent answer report left receipts)
    (hrest : left.SendsUntilDone attempts reports last more) :
    l.SendsUntilDone (a :: attempts) (report :: reports) last (receipts ++ more) where
  call_mem r hr := by
    obtain hr | hr := List.mem_append.1 hr
    · exact ⟨a, List.mem_cons_self, h.call_mem hr⟩
    · obtain ⟨b, hb, hcall⟩ := hrest.call_mem r hr
      have hhalf := h.half_eq r.call.change
      refine ⟨b, List.mem_cons_of_mem a hb, ?_⟩
      split at hhalf
      · -- nothing was left to send
        rw [callsFor_of_half_eq_nil hhalf] at hcall
        cases hcall
      · rwa [callsFor_of_half hhalf] at hcall
  successes_of_done change hdone := by
    have hhalf := h.half_eq change
    rw [successes_append, h.successes_eq]
    split at hhalf
    · next hok =>
      -- it has succeeded at once, so that the other attempts have nothing to send
      refine ⟨a, List.mem_cons_self, ?_⟩
      have hnone : Receipt.successes change more = [] := by
        rw [Receipt.successes, List.map_eq_nil_iff, List.filter_eq_nil_iff]
        intro r hr
        rw [decide_eq_true_iff]
        rintro ⟨rfl, -⟩
        obtain ⟨b, -, hcall⟩ := hrest.call_mem r hr
        rw [callsFor_of_half_eq_nil hhalf] at hcall
        cases hcall
      rw [if_pos hok, hnone, List.append_nil]
    · next hfailed =>
      obtain ⟨late, hlate, hnone⟩ := hdone
      obtain rfl | hlate := List.mem_cons.1 hlate
      · exact absurd ((h.error?_eq_none_iff change).1 hnone) hfailed
      · obtain ⟨b, hb, hsuccesses⟩ := hrest.successes_of_done change ⟨late, hlate, hnone⟩
        refine ⟨b, List.mem_cons_of_mem a hb, ?_⟩
        rw [if_neg hfailed, List.nil_append, hsuccesses, callsFor_of_half hhalf]
  successes_of_failed change hfailed := by
    rw [List.forall_mem_cons] at hfailed
    rw [successes_append, h.successes_eq, hrest.successes_of_failed change hfailed.2,
      if_neg (mt (h.error?_eq_none_iff change).2 hfailed.1), List.append_nil]
  intents_eq := by
    rw [hrest.intents_eq, h.intents_eq, List.filter_filter]
    refine List.filter_congr fun i _ => ?_
    simp only [List.forall_mem_cons, ne_eq, h.error?_eq_none_iff i.change, Bool.decide_and,
      Bool.decide_eq_true, decide_not]
    exact Bool.and_comm _ _

end SendsOnce

/-- Without an attempt nothing is sent and everything is left. -/
theorem sendsUntilDone_nil (l : Ledger) : l.SendsUntilDone [] [] l [] where
  call_mem _ hr := absurd hr List.not_mem_nil
  successes_of_done _ hdone := absurd hdone.choose_spec.1 List.not_mem_nil
  successes_of_failed _ _ := rfl
  intents_eq := (List.filter_eq_self.2 fun _ _ => by simp).symm

/-- **What several attempts send, report and leave.** -/
theorem attempt_sendsUntilDone (l : Ledger) (service : MappingService σ) (attempts : List Attempt)
    (s : σ) :
    let r := attempt service l attempts s
    ∃ receipts,
      (∀ log, attempt service.keepingReceipts l attempts (s, log) =
        (r.1, r.2.1, r.2.2, log ++ receipts)) ∧
      l.SendsUntilDone attempts r.1 r.2.1 receipts := by
  -- the induction is on the attempts, the first of which leaves the ledger of the others
  induction attempts generalizing l s with
  | nil => exact ⟨[], fun log => by rw [List.append_nil]; rfl, l.sendsUntilDone_nil⟩
  | cons a attempts ih =>
    obtain ⟨answer, receipts, hcommit, honce⟩ := l.commit_sendsOnce service a.first a.parent s
    obtain ⟨more, hattempt, hrest⟩ := ih (l.commit service a.first a.parent s).2.1
      (l.commit service a.first a.parent s).2.2
    refine ⟨receipts ++ more, fun log => ?_, honce.sendsUntilDone hrest⟩
    rw [attempt, hcommit]
    dsimp only
    rw [hattempt, List.append_assoc]
    rfl

/-- **Each half of a commit is carried out once.** Whatever is staged, and whatever the service
answers to each of the two calls of a commit, each is made once with all that is pending for its
kind of change, or not at all if nothing is, and what is reported and left is told from its own
answer alone. So when attempts to commit go on until both have succeeded, each has succeeded once,
with what was pending at first, and nothing is left. -/
theorem each_half_once (l : Ledger) (service : MappingService σ) (s : σ) :
    (∀ first parent,
      let r := l.commit service first parent s
      ∃ answer receipts,
        (∀ log, l.commit service.keepingReceipts first parent (s, log) =
          (r.1, r.2.1, r.2.2, log ++ receipts)) ∧
        l.SendsOnce parent answer r.1 r.2.1 receipts) ∧
    ∀ attempts,
      let r := attempt service l attempts s
      ∃ receipts,
        (∀ log, attempt service.keepingReceipts l attempts (s, log) =
          (r.1, r.2.1, r.2.2, log ++ receipts)) ∧
        l.SendsUntilDone attempts r.1 r.2.1 receipts ∧
        ((∀ change, ∃ report ∈ r.1, report.error? change = none) →
          r.2.1 = .empty ∧
          ∀ change, ∃ a ∈ attempts,
            Receipt.successes change receipts = l.callsFor a.parent change) := by
  refine ⟨fun first parent => l.commit_sendsOnce service first parent s, fun attempts => ?_⟩
  obtain ⟨receipts, hlog, hsent⟩ := l.attempt_sendsUntilDone service attempts s
  refine ⟨receipts, hlog, hsent, fun hdone => ⟨?_, fun change =>
    hsent.successes_of_done change (hdone change)⟩⟩
  -- of either kind of change some attempt has not reported a failure
  have hnone : (attempt service l attempts s).2.1.intents = [] := by
    rw [hsent.intents_eq, List.filter_eq_nil_iff]
    intro i _
    rw [decide_eq_true_iff]
    intro hfailed
    obtain ⟨report, hreport, hnone⟩ := hdone i.change
    exact hfailed report hreport hnone
  rw [empty, ← hnone]

/-- The service fails to map at first, so that the call is sent again while nothing is left to be
unmapped. -/
theorem each_half_once_after_failure :
    ∃ (l : Ledger) (s : RelationStore) (parent : ObjectRef) (receipts : List Receipt),
      let attempts : List Attempt := [⟨.map, parent⟩, ⟨.unmap, parent⟩]
      let map : MappingCall := .map parent [⟨.plain 2 ⟨"Control"⟩, some .parent⟩]
      let unmap : MappingCall := .unmap parent [.plain 3 ⟨"Risk"⟩]
      l.intents = [⟨.plain 2 ⟨"Control"⟩, .map, some .parent⟩, ⟨.plain 3 ⟨"Risk"⟩, .unmap, none⟩] ∧
      (attempt RelationStore.service.keepingReceipts l attempts (s, [])).2.2.2 = receipts ∧
      receipts.map Receipt.call = [map, unmap, map] ∧
      (attempt RelationStore.service l attempts s).2.1 = .empty ∧
      Receipt.successes .map receipts = [map] ∧ Receipt.successes .unmap receipts = [unmap] := by
  let l : Ledger :=
    ⟨[⟨.plain 2 ⟨"Control"⟩, .map, some .parent⟩, ⟨.plain 3 ⟨"Risk"⟩, .unmap, none⟩]⟩
  let s : RelationStore := { related := fun _ _ => true, mapFailures := ["down"] }
  let parent : ObjectRef := .plain 1 ⟨"Program"⟩
  let attempts : List Attempt := [⟨.map, parent⟩, ⟨.unmap, parent⟩]
  obtain ⟨receipts, hlog, -, hdone⟩ := (l.each_half_once RelationStore.service s).2 attempts
  have hreceipts : (attempt RelationStore.service.keepingReceipts l attempts (s, [])).2.2.2 =
      receipts := congrArg (·.2.2.2) (hlog [])
  have hcalls : receipts.map Receipt.call =
      [.map parent [⟨.plain 2 ⟨"Control"⟩, some .parent⟩], .unmap parent [.plain 3 ⟨"Risk"⟩],
        .map parent [⟨.plain 2 ⟨"Control"⟩, some .parent⟩]] := by
    rw [← hreceipts]
    rfl
  -- the mapping succeeds with the second attempt and the unmapping with the first
  have hall : ∀ change, ∃ report ∈ (attempt RelationStore.service l attempts s).1,
      report.error? change = none := by
    intro change
    cases change with
    | map => exact ⟨_, List.mem_cons_of_mem _ List.mem_cons_self, rfl⟩
    | unmap => exact ⟨_, List.mem_cons_self, rfl⟩
  obtain ⟨hleft, hsuccesses⟩ := hdone hall
  have hparent : ∀ a ∈ attempts, a.parent = parent := by decide
  obtain ⟨a, ha, hmap⟩ := hsuccesses .map
  obtain ⟨b, hb, hunmap⟩ := hsuccesses .unmap
  rw [hparent a ha] at hmap
  rw [hparent b hb] at hunmap
  exact ⟨l, s, parent, receipts, rfl, hreceipts, hcalls, hleft, hmap, hunmap⟩

end Ledger

end ObjectMapping
