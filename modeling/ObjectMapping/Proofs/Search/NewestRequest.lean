import Mathlib.Data.List.Induction
import ObjectMapping.Search.Session

/-! # The newest request wins

Requests of a session overlap in any way: tokens are issued, queries are sent, and answers and
failures arrive in any order. A session is followed here from its start through any events, and what
it delivers is told from the events alone: the token of a request is the number of tokens issued
when it was made (`Session.latest_after`), so a later token has been issued exactly when more than
that have been issued since.

Tokens are counted without a bound. A counter of 64 bits (`Session.counter`) tells the same request as
the newest, as long as fewer than 2 ^ 64 tokens are issued.

* **`Session.goes_step`** — the ways in which one event goes.
* **`Session.underway_iff`** — which requests are under way, told from the events.
* **`Session.newest_wins`** — an answer counts exactly when its request is the newest, and what
  counts is delivered in the order of the tokens. -/

namespace ObjectMapping

namespace SessionEvent

/-- Whether an event issues a token. -/
def issues : SessionEvent → Bool
  | .begin | .issue _ => true
  | _ => false

/-- Whether an event leaves the request with a token as it is, given whether its queries have been
sent. What arrives before they have been sent is no answer to them. -/
def Spares (token : Nat) (sent : Bool) : SessionEvent → Prop
  | .send t => t = token → sent = true
  | .receive t _ => t = token → sent = false
  | .abandon t => t ≠ token
  | _ => True

end SessionEvent

/-- Whether a delivery **counts**: it is an answer or a failure, and not just that the request was
superseded. -/
def Delivery.counts (d : Delivery) : Bool :=
  match d.result with
  | .ok none => false
  | _ => true

namespace Session

/-- The number of tokens that events issue. -/
def issued (events : List SessionEvent) : Nat := events.countP SessionEvent.issues

/-- The **counter** of tokens as a word of 64 bits, after events: each token that is issued adds one
to it, and behind the largest word comes zero. -/
def counter (events : List SessionEvent) : UInt64 :=
  events.foldl (fun n e => if e.issues then n + 1 else n) 0

/-- The session **after events**, from its start on. -/
def after (events : List SessionEvent) : Session := (({} : Session).run events).1

/-- What is **delivered** during events, from the start of the session on. -/
def deliveries (events : List SessionEvent) : List Delivery := (({} : Session).run events).2

/-- A request **waits to be sent** after events: it was made and got its token, and since then its
queries have not been sent, nor has it been abandoned. -/
def WaitsToSend (events : List SessionEvent) (token : Nat) (work : Work) : Prop :=
  ∃ before since, events = before ++ .issue work :: since ∧ token = issued before + 1 ∧
    ∀ e ∈ since, e.Spares token false

/-- A request **waits for its answer** after events: its queries were sent, and since then no answer
to them has arrived, nor has it been abandoned. -/
def WaitsForAnswer (events : List SessionEvent) (token : Nat) (work : Work) : Prop :=
  ∃ before since, events = before ++ .send token :: since ∧ WaitsToSend before token work ∧
    ∀ e ∈ since, e.Spares token true

/-- The request with a token is **under way** after events. -/
def Underway (events : List SessionEvent) (token : Nat) : Request → Prop
  | ⟨work, false⟩ => WaitsToSend events token work
  | ⟨work, true⟩ => WaitsForAnswer events token work

/-! ### One event -/

/-- The **ways in which an event goes**: the session after it, and what it delivers. -/
inductive Goes (s : Session) : SessionEvent → Session × Option Delivery → Prop where
  /-- A token is issued. -/
  | begin : Goes s .begin ({ s with latest := s.latest + 1 }, none)
  /-- A request is made. -/
  | issue (work : Work) : Goes s (.issue work)
      (⟨s.latest + 1, s.underway.insert (s.latest + 1) ⟨work, false⟩⟩, none)
  /-- The queries of a request are sent. -/
  | send {token : Nat} {r : Request} (h : s.underway.get? token = some r) : Goes s (.send token)
      ({ s with underway := s.underway.insert token ⟨r.work, true⟩ }, none)
  /-- There is no request whose queries could be sent. -/
  | noRequest {token : Nat} (h : s.underway.get? token = none) : Goes s (.send token) (s, none)
  /-- The answer for a request arrives. -/
  | receive {token : Nat} {work : Work} {answer : Except SearchError (List Json)}
      (h : s.underway.get? token = some ⟨work, true⟩) : Goes s (.receive token answer)
      ({ s with underway := s.underway.erase token }, some ⟨token, s.deliver token work answer⟩)
  /-- What arrives answers no request. -/
  | noAnswer {token : Nat} {answer : Except SearchError (List Json)}
      (h : ∀ work, s.underway.get? token ≠ some ⟨work, true⟩) :
      Goes s (.receive token answer) (s, none)
  /-- A request is abandoned. -/
  | abandon (token : Nat) : Goes s (.abandon token)
      ({ s with underway := s.underway.erase token }, none)

section Step

variable {s : Session} {e : SessionEvent} {token : Nat} {r : Request} {work : Work}
  {x : Session × Option Delivery}

/-- **An event goes in one of the ways.** -/
theorem goes_step (s : Session) (e : SessionEvent) : s.Goes e (s.step e) := by
  cases e with
  | begin => exact .begin
  | issue work => exact .issue work
  | send token =>
    unfold step
    cases h : s.underway.get? token with
    | none => simpa only [h] using Goes.noRequest h
    | some r => simpa only [h] using Goes.send h
  | receive token answer =>
    simp only [step]
    split
    · next work h => exact .receive h
    · next hno => exact .noAnswer hno
  | abandon token => exact .abandon token

/-- An event that issues a token makes it the newest, and no other event changes the newest. -/
theorem Goes.latest_eq (h : s.Goes e x) : x.1.latest = s.latest + if e.issues then 1 else 0 := by
  cases h <;> rfl

/-- An event that spares a request leaves it under way, unless its token is still to come. -/
theorem Goes.get?_of_spares (h : s.Goes e x) (hr : s.underway.get? token = some r)
    (he : e.Spares token r.sent) (hle : token ≤ s.latest) : x.1.underway.get? token = some r := by
  cases h with
  | issue w =>
    have hne : token ≠ s.latest + 1 := by omega
    rw [SortedMap.get?_insert, if_neg hne, hr]
  | @send t other hother =>
    rw [SortedMap.get?_insert]
    by_cases ht : token = t
    · have hsent : r.sent = true := he ht.symm
      have hrequest : r = other := Option.some.inj (hr.symm.trans (ht ▸ hother))
      rw [if_pos ht, ← hsent, ← hrequest]
    · rw [if_neg ht, hr]
  | @receive t w answer hother =>
    have ht : token ≠ t := by
      intro ht
      have hsent : r.sent = false := he ht.symm
      rw [ht, hother] at hr
      cases hr
      cases hsent
    rw [SortedMap.get?_erase, if_neg ht, hr]
  | abandon t =>
    have ht : token ≠ t := Ne.symm he
    rw [SortedMap.get?_erase, if_neg ht, hr]
  | _ => exact hr

/-- A request that is under way after an event was made or sent by it, or it was under way before
and is spared. -/
theorem Goes.get?_cases (h : s.Goes e x) (hr : x.1.underway.get? token = some r) :
    (∃ work, e = .issue work ∧ token = s.latest + 1 ∧ r = ⟨work, false⟩) ∨
      (∃ work, e = .send token ∧ s.underway.get? token = some ⟨work, false⟩ ∧ r = ⟨work, true⟩) ∨
      s.underway.get? token = some r ∧ e.Spares token r.sent := by
  cases h with
  | begin => exact .inr (.inr ⟨hr, trivial⟩)
  | issue work =>
    rw [SortedMap.get?_insert] at hr
    by_cases ht : token = s.latest + 1
    · rw [if_pos ht] at hr
      exact .inl ⟨work, rfl, ht, (Option.some.inj hr).symm⟩
    · rw [if_neg ht] at hr
      exact .inr (.inr ⟨hr, trivial⟩)
  | @send t other hother =>
    rw [SortedMap.get?_insert] at hr
    by_cases ht : token = t
    · -- it is sent now, or was sent already and this changes nothing
      rw [if_pos ht] at hr
      obtain rfl := Option.some.inj hr
      obtain ⟨work, sent⟩ := other
      rw [← ht] at hother ⊢
      cases sent with
      | false => exact .inr (.inl ⟨work, rfl, hother, rfl⟩)
      | true => exact .inr (.inr ⟨hother, fun _ => rfl⟩)
    · rw [if_neg ht] at hr
      exact .inr (.inr ⟨hr, fun h' => absurd h'.symm ht⟩)
  | @noRequest t hnone =>
    refine .inr (.inr ⟨hr, fun ht => ?_⟩)
    rw [← ht, hnone] at hr
    cases hr
  | @receive t w answer hother =>
    rw [SortedMap.get?_erase] at hr
    by_cases ht : token = t
    · rw [if_pos ht] at hr
      cases hr
    · rw [if_neg ht] at hr
      exact .inr (.inr ⟨hr, fun h' => absurd h'.symm ht⟩)
  | @noAnswer t answer hno =>
    refine .inr (.inr ⟨hr, fun ht => ?_⟩)
    obtain ⟨work, sent⟩ := r
    cases sent with
    | false => rfl
    | true => exact absurd (ht ▸ hr) (hno work)
  | abandon t =>
    rw [SortedMap.get?_erase] at hr
    by_cases ht : token = t
    · rw [if_pos ht] at hr
      cases hr
    · rw [if_neg ht] at hr
      exact .inr (.inr ⟨hr, Ne.symm ht⟩)

/-- A request that is not under way, though its token has been issued, never comes back. -/
theorem Goes.get?_eq_none (h : s.Goes e x) (hnone : s.underway.get? token = none)
    (hle : token ≤ s.latest) : x.1.underway.get? token = none := by
  cases hr : x.1.underway.get? token with
  | none => rfl
  | some r =>
    obtain ⟨work, -, htoken, -⟩ | ⟨work, -, hbefore, -⟩ | ⟨hbefore, -⟩ := h.get?_cases hr
    · omega
    · rw [hnone] at hbefore
      cases hbefore
    · rw [hnone] at hbefore
      cases hbefore

/-- What is delivered comes of a request that was sent, and that is under way no longer. -/
theorem Goes.of_delivery {d : Delivery} (h : s.Goes e x) (hd : x.2 = some d) :
    ∃ work answer, e = .receive d.token answer ∧ s.underway.get? d.token = some ⟨work, true⟩ ∧
      d.result = s.deliver d.token work answer ∧ x.1.underway.get? d.token = none := by
  cases h with
  | @receive token work answer hsent =>
    obtain rfl := Option.some.inj hd
    exact ⟨work, answer, rfl, hsent, rfl, by rw [SortedMap.get?_erase, if_pos rfl]⟩
  | _ => cases hd

/-- What counts is delivered for the newest token only. -/
theorem eq_latest_of_counts {d : Delivery} {answer : Except SearchError (List Json)}
    (hd : d.result = s.deliver d.token work answer) (hcounts : d.counts = true) :
    d.token = s.latest := by
  by_contra hne
  have hold : s.isCurrent d.token = false := by simpa [isCurrent] using Ne.symm hne
  rw [deliver, hold] at hd
  rw [Delivery.counts, hd] at hcounts
  cases hcounts

/-- What is delivered for the newest token counts. -/
theorem counts_map_some (token : Nat) (result : Except SearchError Found) :
    Delivery.counts ⟨token, result.map some⟩ = true := by
  cases result <;> rfl

end Step

/-! ### Events in turn -/

section Run

variable {events since : List SessionEvent} {e : SessionEvent} {token : Nat} {r : Request}
  {work : Work} {answer : Except SearchError (List Json)}

/-- Events in turn, and then others. -/
theorem run_append (s : Session) (events more : List SessionEvent) :
    s.run (events ++ more) =
      (((s.run events).1.run more).1, (s.run events).2 ++ ((s.run events).1.run more).2) := by
  induction events generalizing s with
  | nil => rfl
  | cons e rest ih =>
    rw [List.cons_append]
    simp only [run, ih, List.append_assoc]

/-- The session after one more event. -/
theorem after_concat (events : List SessionEvent) (e : SessionEvent) :
    after (events ++ [e]) = ((after events).step e).1 := by
  rw [after, run_append]
  rfl

/-- What is delivered with one more event. -/
theorem deliveries_concat (events : List SessionEvent) (e : SessionEvent) :
    deliveries (events ++ [e]) = deliveries events ++ ((after events).step e).2.toList := by
  rw [deliveries, run_append]
  exact congrArg _ (List.append_nil _)

/-- The number of tokens that are issued with one more event. -/
theorem issued_concat (events : List SessionEvent) (e : SessionEvent) :
    issued (events ++ [e]) = issued events + if e.issues then 1 else 0 := by
  rw [issued, List.countP_append, List.countP_singleton]
  rfl

/-- **The newest token is the number of tokens issued.** -/
theorem latest_after (events : List SessionEvent) : (after events).latest = issued events := by
  induction events using List.reverseRecOn with
  | nil => rfl
  | append_singleton events e ih =>
    rw [after_concat, (goes_step _ e).latest_eq, ih, issued_concat]

/-- **The counter is the number of tokens issued**, as far as a word of 64 bits tells it. -/
theorem counter_eq (events : List SessionEvent) : counter events = .ofNat (issued events) := by
  induction events using List.reverseRecOn with
  | nil => rfl
  | append_singleton events e ih =>
    have hconcat : counter (events ++ [e]) =
        if e.issues then counter events + 1 else counter events := List.foldl_append
    rw [hconcat, issued_concat, ih]
    split
    · rw [UInt64.ofNat_add]
      rfl
    · rfl

/-- **The counter tells the newest token**, as long as fewer than 2 ^ 64 tokens have been issued. -/
theorem counter_eq_counter_iff {before : List SessionEvent}
    (hevents : events = before ++ e :: since) (he : e.issues = true)
    (hbound : issued events < UInt64.size) :
    counter (before ++ [e]) = counter events ↔ issued before + 1 = issued events := by
  have hissued : issued (before ++ [e]) = issued before + 1 := by
    rw [issued_concat, if_pos he]
  have hle : issued before + 1 ≤ issued events := by
    rw [hevents, List.append_cons, ← hissued]
    exact (List.sublist_append_left _ since).countP_le
  rw [counter_eq, counter_eq, hissued, ← UInt64.toNat_inj,
    UInt64.toNat_ofNat_of_lt' (Nat.lt_of_le_of_lt hle hbound), UInt64.toNat_ofNat_of_lt' hbound]

/-- A request that waits to be sent has a token that has been issued. -/
theorem WaitsToSend.le_issued (h : WaitsToSend events token work) : token ≤ issued events := by
  obtain ⟨before, since, rfl, rfl, -⟩ := h
  rw [issued, issued, List.countP_append, List.countP_cons]
  simp only [SessionEvent.issues, if_true]
  omega

/-- A request that is under way has a token that has been issued. -/
theorem Underway.le_issued (h : Underway events token r) : token ≤ issued events := by
  obtain ⟨work, sent⟩ := r
  cases sent with
  | false => exact WaitsToSend.le_issued h
  | true =>
    obtain ⟨before, since, rfl, hwaits, -⟩ := h
    have hle := hwaits.le_issued
    rw [issued, List.countP_append]
    exact Nat.le_add_right_of_le hle

/-- A request that an event spares stays under way. -/
theorem Underway.concat (h : Underway events token r) (he : e.Spares token r.sent) :
    Underway (events ++ [e]) token r := by
  obtain ⟨work, sent⟩ := r
  have hspares : ∀ since : List SessionEvent, (∀ x ∈ since, x.Spares token sent) →
      ∀ x ∈ since ++ [e], x.Spares token sent := by
    intro since hsince x hx
    rcases List.mem_append.1 hx with hx | hx
    · exact hsince x hx
    · exact List.mem_singleton.1 hx ▸ he
  cases sent with
  | false =>
    obtain ⟨before, since, rfl, htoken, hsince⟩ := h
    exact ⟨before, since ++ [e], by simp, htoken, hspares since hsince⟩
  | true =>
    obtain ⟨before, since, rfl, hwaits, hsince⟩ := h
    exact ⟨before, since ++ [e], by simp, hwaits, hspares since hsince⟩

/-- Only requests that are under way, as the events tell, are kept. -/
theorem underway_of_get? (h : (after events).underway.get? token = some r) :
    Underway events token r := by
  induction events using List.reverseRecOn generalizing token r with
  | nil => cases h
  | append_singleton events e ih =>
    rw [after_concat] at h
    obtain ⟨work, rfl, htoken, rfl⟩ | ⟨work, rfl, hbefore, rfl⟩ | ⟨hbefore, he⟩ :=
      (goes_step _ e).get?_cases h
    · rw [latest_after] at htoken
      show WaitsToSend (events ++ [.issue work]) token work
      exact ⟨events, [], rfl, htoken, fun _ h => absurd h List.not_mem_nil⟩
    · show WaitsForAnswer (events ++ [.send token]) token work
      exact ⟨events, [], rfl, ih hbefore, fun _ h => absurd h List.not_mem_nil⟩
    · exact (ih hbefore).concat he

/-- A request that is kept is still kept after events that all spare it. -/
theorem get?_after_append (h : (after events).underway.get? token = some r)
    (hsince : ∀ e ∈ since, e.Spares token r.sent) :
    (after (events ++ since)).underway.get? token = some r := by
  induction since using List.reverseRecOn with
  | nil => rwa [List.append_nil]
  | append_singleton since e ih =>
    have hkept := ih fun x hx => hsince x (List.mem_append_left _ hx)
    have he : e.Spares token r.sent :=
      hsince e (List.mem_append_right _ (List.mem_singleton_self e))
    have hle : token ≤ (after (events ++ since)).latest := by
      rw [latest_after]
      exact (underway_of_get? hkept).le_issued
    rw [← List.append_assoc, after_concat]
    exact (goes_step _ e).get?_of_spares hkept he hle

/-- A request that waits to be sent is kept. -/
theorem WaitsToSend.get?_after (h : WaitsToSend events token work) :
    (after events).underway.get? token = some ⟨work, false⟩ := by
  obtain ⟨before, since, rfl, rfl, hsince⟩ := h
  have hmade : (after (before ++ [.issue work])).underway.get? (issued before + 1) =
      some ⟨work, false⟩ := by
    rw [after_concat, ← latest_after]
    simp [step]
  rw [List.append_cons]
  exact get?_after_append hmade hsince

/-- A request that waits for its answer is kept as sent. -/
theorem WaitsForAnswer.get?_after (h : WaitsForAnswer events token work) :
    (after events).underway.get? token = some ⟨work, true⟩ := by
  obtain ⟨before, since, rfl, hwaits, hsince⟩ := h
  have hsent : (after (before ++ [.send token])).underway.get? token = some ⟨work, true⟩ := by
    rw [after_concat]
    simp [step, hwaits.get?_after]
  rw [List.append_cons]
  exact get?_after_append hsent hsince

/-- **A session keeps the requests that are under way**, as the events tell. -/
theorem underway_iff :
    (after events).underway.get? token = some r ↔ Underway events token r := by
  refine ⟨underway_of_get?, fun h => ?_⟩
  obtain ⟨work, sent⟩ := r
  cases sent with
  | false => exact WaitsToSend.get?_after h
  | true => exact WaitsForAnswer.get?_after h

/-! ### Deliveries -/

/-- The answer for a request that waits for it is delivered as of that moment. -/
theorem deliveries_receive (h : WaitsForAnswer events token work) :
    deliveries (events ++ [.receive token answer]) =
      deliveries events ++ [⟨token, (after events).deliver token work answer⟩] := by
  rw [deliveries_concat]
  congr 1
  simp [step, h.get?_after]

/-- Only the answer for a request that waits for it is delivered. -/
theorem deliveries_concat_cases (events : List SessionEvent) (e : SessionEvent) :
    deliveries (events ++ [e]) = deliveries events ∨
      ∃ d work answer, deliveries (events ++ [e]) = deliveries events ++ [d] ∧
        e = .receive d.token answer ∧ WaitsForAnswer events d.token work ∧
        d.result = (after events).deliver d.token work answer ∧
        (after (events ++ [e])).underway.get? d.token = none := by
  have hgoes := goes_step (after events) e
  rw [deliveries_concat, after_concat]
  cases hd : ((after events).step e).2 with
  | none => exact .inl (List.append_nil _)
  | some d =>
    obtain ⟨work, answer, he, hsent, hresult, hnone⟩ := hgoes.of_delivery hd
    exact .inr ⟨d, work, answer, rfl, he, underway_of_get? hsent, hresult, hnone⟩

/-- What has been delivered is under way no longer. -/
theorem delivered {d : Delivery} (hd : d ∈ deliveries events) :
    (after events).underway.get? d.token = none ∧ d.token ≤ issued events := by
  induction events using List.reverseRecOn with
  | nil => cases hd
  | append_singleton events e ih =>
    have hmono : issued events ≤ issued (events ++ [e]) := by
      rw [issued_concat]
      exact Nat.le_add_right _ _
    have hbefore : d ∈ deliveries events →
        (after (events ++ [e])).underway.get? d.token = none ∧
          d.token ≤ issued (events ++ [e]) := by
      intro hd
      obtain ⟨hnone, hle⟩ := ih hd
      refine ⟨?_, Nat.le_trans hle hmono⟩
      rw [← latest_after] at hle
      rw [after_concat]
      exact (goes_step _ e).get?_eq_none hnone hle
    obtain heq | ⟨new, work, answer, heq, -, hwaits, -, hnone⟩ := deliveries_concat_cases events e
    · rw [heq] at hd
      exact hbefore hd
    · rw [heq] at hd
      rcases List.mem_append.1 hd with hd | hd
      · exact hbefore hd
      · obtain rfl := List.mem_singleton.1 hd
        have hle : d.token ≤ issued events := Underway.le_issued (r := ⟨work, true⟩) hwaits
        exact ⟨hnone, Nat.le_trans hle hmono⟩

/-- A request that waits for its answer has not been delivered. -/
theorem WaitsForAnswer.ne_of_delivered {d : Delivery} (h : WaitsForAnswer events token work)
    (hd : d ∈ deliveries events) : d.token ≠ token := by
  intro htoken
  have hkept := h.get?_after
  rw [← htoken, (delivered hd).1] at hkept
  cases hkept

/-- A request comes to its end at most once. -/
theorem nodup_tokens (events : List SessionEvent) :
    ((deliveries events).map Delivery.token).Nodup := by
  induction events using List.reverseRecOn with
  | nil => exact List.nodup_nil
  | append_singleton events e ih =>
    obtain heq | ⟨new, work, answer, heq, -, hwaits, -⟩ := deliveries_concat_cases events e
    · rwa [heq]
    · rw [heq, List.map_append]
      refine List.pairwise_append.2 ⟨ih, List.pairwise_singleton _ _, fun t ht n hn => ?_⟩
      obtain ⟨d, hd, rfl⟩ := List.mem_map.1 ht
      rw [List.mem_singleton.1 hn]
      exact hwaits.ne_of_delivered hd

/-- **What counts is delivered in the order of the tokens.** -/
theorem counting_increasing (events : List SessionEvent) :
    (((deliveries events).filter Delivery.counts).map Delivery.token).Pairwise (· < ·) := by
  induction events using List.reverseRecOn with
  | nil => exact List.Pairwise.nil
  | append_singleton events e ih =>
    obtain heq | ⟨new, work, answer, heq, -, hwaits, hresult, -⟩ := deliveries_concat_cases events e
    · rwa [heq]
    · rw [heq, List.filter_append, List.map_append]
      refine List.pairwise_append.2 ⟨ih, ?_, fun t ht n hn => ?_⟩
      · exact (List.pairwise_singleton (· < ·) new.token).sublist
          ((List.filter_sublist (l := [new])).map Delivery.token)
      · -- the new token is the newest, and those before it are others
        obtain ⟨d, hd, rfl⟩ := List.mem_map.1 ht
        obtain ⟨d', hd', rfl⟩ := List.mem_map.1 hn
        obtain ⟨hmem, hcounts⟩ := List.mem_filter.1 hd'
        obtain rfl := List.mem_singleton.1 hmem
        have hnewest := eq_latest_of_counts hresult hcounts
        have hd := (List.mem_filter.1 hd).1
        have hle := (delivered hd).2
        have hne := hwaits.ne_of_delivered hd
        rw [latest_after] at hnewest
        omega

/-- Of what is delivered after events, no answer for an older token counts. -/
theorem exists_later_deliveries (events more : List SessionEvent) :
    ∃ later, deliveries (events ++ more) = deliveries events ++ later ∧
      ∀ d ∈ later, d.counts = true → issued events ≤ d.token := by
  induction more using List.reverseRecOn with
  | nil => exact ⟨[], by simp, nofun⟩
  | append_singleton more e ih =>
    obtain ⟨later, hlater, hnewer⟩ := ih
    rw [← List.append_assoc]
    obtain heq | ⟨new, work, answer, heq, -, -, hresult, -⟩ :=
      deliveries_concat_cases (events ++ more) e
    · exact ⟨later, heq.trans hlater, hnewer⟩
    · refine ⟨later ++ [new], by rw [heq, hlater, List.append_assoc], fun d hd hcounts => ?_⟩
      rcases List.mem_append.1 hd with hd | hd
      · exact hnewer d hd hcounts
      · obtain rfl := List.mem_singleton.1 hd
        have hnewest := eq_latest_of_counts hresult hcounts
        rw [hnewest, latest_after, issued, issued, List.countP_append]
        exact Nat.le_add_right _ _

end Run

/-- **The newest request wins**: what a session delivers, told from the events up to a moment. -/
structure NewestWins (events : List SessionEvent) : Prop where
  /-- The newest token is the number of tokens issued. -/
  newest : (after events).latest = issued events
  /-- A counter of 64 bits tells the newest token as well, as long as fewer than 2 ^ 64 tokens have
  been issued: its word when a token was issued is still the present one exactly if that token is
  the newest. -/
  counter_iff : issued events < UInt64.size → ∀ before e since, events = before ++ e :: since →
    e.issues = true → (counter (before ++ [e]) = counter events ↔
      (after events).isCurrent (issued before + 1) = true)
  /-- A request that waits for its answer has a token that was issued. -/
  issued_of_waits : ∀ token work, WaitsForAnswer events token work → token ≤ issued events
  /-- If a later token has been issued when the answer arrives, nothing comes of the request,
  whether the service succeeded or failed. -/
  superseded : ∀ token work answer, WaitsForAnswer events token work → token < issued events →
    deliveries (events ++ [.receive token answer]) = deliveries events ++ [⟨token, .ok none⟩]
  /-- If its token is still the newest, what comes of the request is what it makes of the answer
  itself, or the failure, and that counts. -/
  current : ∀ token work answer, WaitsForAnswer events token work → token = issued events →
    deliveries (events ++ [.receive token answer]) =
        deliveries events ++ [⟨token, (answer.bind work.finish).map some⟩] ∧
      Delivery.counts ⟨token, (answer.bind work.finish).map some⟩ = true
  /-- Nothing else is delivered. -/
  silent : ∀ e, (∀ token work answer, e = .receive token answer →
    ¬ WaitsForAnswer events token work) → deliveries (events ++ [e]) = deliveries events
  /-- A request comes to its end at most once. -/
  once : ((deliveries events).map Delivery.token).Nodup
  /-- What counts is delivered in the order of the tokens. -/
  increasing : (((deliveries events).filter Delivery.counts).map Delivery.token).Pairwise (· < ·)
  /-- Once a token has been issued, no answer for an older one counts any more. -/
  no_older : ∀ more, ∃ later, deliveries (events ++ more) = deliveries events ++ later ∧
    ∀ d ∈ later, d.counts = true → issued events ≤ d.token

/-- **The newest request wins**, whatever happens in a session and in whatever order. -/
theorem newest_wins (events : List SessionEvent) : NewestWins events where
  newest := latest_after events
  counter_iff hbound before e since hevents he := by
    rw [counter_eq_counter_iff hevents he hbound, isCurrent, beq_iff_eq, latest_after]
    exact eq_comm
  issued_of_waits token work h := Underway.le_issued (r := ⟨work, true⟩) h
  superseded token work answer h hlt := by
    have hold : (after events).isCurrent token = false := by
      rw [isCurrent, latest_after]
      simpa using Nat.ne_of_gt hlt
    rw [deliveries_receive h, deliver, hold]
    rfl
  current token work answer h heq := by
    have hnew : (after events).isCurrent token = true := by
      rw [isCurrent, latest_after, heq]
      exact beq_self_eq_true _
    refine ⟨?_, counts_map_some token _⟩
    rw [deliveries_receive h, deliver, if_pos hnew]
  silent e h := by
    obtain heq | ⟨d, work, answer, -, he, hwaits, -⟩ := deliveries_concat_cases events e
    · exact heq
    · exact absurd hwaits (h d.token work answer he)
  once := nodup_tokens events
  increasing := counting_increasing events
  no_older := exists_later_deliveries events

/-- An answer that comes after that for a later request is dropped, a failure too. -/
example (answers : List Json) (failure : SearchError) :
    deliveries [.issue (.execute []), .issue (.execute []), .send 1, .send 2,
      .receive 2 (.ok answers), .receive 1 (.error failure)] =
        [⟨2, .ok (some (.answers answers))⟩, ⟨1, .ok none⟩] := rfl

end Session

end ObjectMapping
