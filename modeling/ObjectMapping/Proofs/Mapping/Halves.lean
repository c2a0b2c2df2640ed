import Mathlib.Data.List.Find
import ObjectMapping.Mapping.Relationships
import ObjectMapping.Proofs.Ledger.History
import ObjectMapping.Proofs.Ledger.Pending

/-! # The order of the two halves of a commit

The two calls of a commit are on their way at the same time, and the mapping service may carry out
either of them first. For the service in memory this makes no difference. A call to unmap looks up
the relationships that it is to take away, and a call to map makes relationships, but never the ones
that are looked up: a ledger holds at most one intent for each object, so that no object is to be
mapped and unmapped by the same commit.

* **`Ledger.Life.run_invariant`** — what every event keeps holds of a ledger all its life.
* **`Ledger.answer_send_after`** — neither call is answered differently behind the other one.
* **`Ledger.halves_commute`** — a commit comes to the same in either order. -/

namespace ObjectMapping

/-! ### Relationships -/

namespace Relations

variable {r : Relations} {source : ObjectKey} {keys others : List ObjectKey} {change : Change}
  {answer : ServiceAnswer}

/-- The relationships after a **change** to those of a source to targets. -/
def changed (r : Relations) (change : Change) (source : ObjectKey) (keys : List ObjectKey) :
    Relations :=
  match change with
  | .map => r.relate source keys
  | .unmap => r.separate source keys

/-- The relationships after the **answer** to a call that is to change those of a source to
targets. -/
def answered (r : Relations) (change : Change) (source : ObjectKey) (keys : List ObjectKey)
    (answer : ServiceAnswer) : Relations :=
  if answer.isOk then r.changed change source keys else r

/-- A change to nothing is none. -/
theorem answered_nil : r.answered change source [] answer = r := by
  unfold answered
  split
  · cases change <;> funext a b <;> simp [changed, relate, separate]
  · rfl

/-- Relationships to other objects stay as they are. -/
theorem answered_of_notMem {a b : ObjectKey} (h : b ∉ keys) :
    r.answered change source keys answer a b = r a b := by
  unfold answered
  split
  · cases change <;> simp [changed, relate, separate, h]
  · rfl

/-- Relationships to some objects are made and to others taken away in either order. -/
theorem answered_comm (h : keys.Disjoint others) (m u : ServiceAnswer) :
    (r.answered .unmap source others u).answered .map source keys m =
      (r.answered .map source keys m).answered .unmap source others u := by
  funext a b
  by_cases hb : b ∈ keys
  · -- what is taken away is not about this object
    have hother : b ∉ others := h hb
    rw [answered_of_notMem hother]
    unfold answered
    cases m <;> cases u <;> simp [changed, relate, separate, hother, Except.isOk, Except.toBool]
  · rw [answered_of_notMem hb]
    unfold answered
    cases m <;> cases u <;> simp [changed, relate, separate, hb, Except.isOk, Except.toBool]

/-- Which objects are related after what was to be mapped and what was to be unmapped. -/
theorem answered_answered_iff (m u : ServiceAnswer) (a b : ObjectKey) :
    (r.answered .map source keys m).answered .unmap source others u a b = true ↔
      (r a b = true ∨ m.isOk = true ∧ a = source ∧ b ∈ keys) ∧
        ¬ (u.isOk = true ∧ a = source ∧ b ∈ others) := by
  unfold answered
  cases m.isOk <;> cases u.isOk <;> simp [changed, relate, separate, imp_iff_not_or]

end Relations

namespace RelationStore

variable {s : RelationStore} {source : ObjectRef}

/-- The failures to come of the calls for one kind of change. -/
def failures (s : RelationStore) (change : Change) : List String :=
  change.pick s.mapFailures s.unmapFailures

/-- What a call to map does to the relationships. -/
theorem related_map (targets : List MappingTarget) :
    (map source targets s).2.related = s.related.answered .map source.key
      (targets.map fun t => t.object.key) (map source targets s).1 := by
  unfold map
  cases s.mapFailures <;> rfl

/-- What a call to unmap does to the relationships. -/
theorem related_unmap (targets : List ObjectRef) :
    (unmap source targets s).2.related = s.related.answered .unmap source.key
      (targets.map ObjectRef.key) (unmap source targets s).1 := by
  unfold unmap
  cases s.unmapFailures with
  | cons report rest => rfl
  | nil =>
    dsimp only
    cases targets.find? fun t => !s.related source.key t.key <;> rfl

end RelationStore

namespace Ledger

variable {l : Ledger} {parent : ObjectRef} {s t : RelationStore} {change : Change}

/-! ### The halves of a commit -/

/-- The objects for which one kind of change is pending. -/
def keysFor (l : Ledger) (change : Change) : List ObjectKey :=
  (l.half change).map fun i => i.object.key

/-- No object is pending both to be mapped and to be unmapped. -/
theorem keysFor_disjoint (h : Distinct l.intents) (change : Change) :
    (l.keysFor change).Disjoint (l.keysFor change.opposite) := by
  intro key hkey hother
  obtain ⟨i, hi, rfl⟩ := List.mem_map.1 hkey
  obtain ⟨j, hj, hsame⟩ := List.mem_map.1 hother
  obtain ⟨hi, hchange⟩ := List.mem_filter.1 hi
  obtain ⟨hj, hopposite⟩ := List.mem_filter.1 hj
  rw [h.eq hj hi hsame, of_decide_eq_true hchange] at hopposite
  exact change.opposite_ne (of_decide_eq_true hopposite).symm

/-- The answer for one kind of change depends on the failures that are to come of its calls and on
the relationships that it is to change, and on nothing else. -/
theorem answer_send_congr (hfailures : s.failures change = t.failures change)
    (hrelated : ∀ key ∈ l.keysFor change, s.related parent.key key = t.related parent.key key) :
    (l.send RelationStore.service parent change s).1 =
      (l.send RelationStore.service parent change t).1 := by
  unfold send
  by_cases hnone : l.half change = []
  · rw [if_pos hnone, if_pos hnone]
  · rw [if_neg hnone, if_neg hnone]
    cases change with
    | map =>
      have hfailures : s.mapFailures = t.mapFailures := hfailures
      show (RelationStore.map parent _ s).1 = (RelationStore.map parent _ t).1
      unfold RelationStore.map
      dsimp only
      rw [hfailures]
      cases t.mapFailures <;> rfl
    | unmap =>
      have hfailures : s.unmapFailures = t.unmapFailures := hfailures
      -- the first object that is not related is the same one
      have hfind : l.pendingUnmaps.find? (fun r => !s.related parent.key r.key) =
          l.pendingUnmaps.find? fun r => !t.related parent.key r.key := by
        refine List.find?_congr fun r hr => ?_
        obtain ⟨i, hi, rfl⟩ := List.mem_map.1 hr
        rw [hrelated _ (List.mem_map_of_mem hi)]
      show (RelationStore.unmap parent _ s).1 = (RelationStore.unmap parent _ t).1
      unfold RelationStore.unmap
      dsimp only
      rw [hfailures, hfind]
      cases t.unmapFailures with
      | cons report rest => rfl
      | nil =>
        dsimp only
        cases l.pendingUnmaps.find? fun r => !t.related parent.key r.key <;> rfl

/-- What one half of a commit does to the relationships, as its answer tells. -/
theorem related_send (l : Ledger) (parent : ObjectRef) (change : Change) (s : RelationStore) :
    (l.send RelationStore.service parent change s).2.related =
      s.related.answered change parent.key (l.keysFor change)
        (l.send RelationStore.service parent change s).1 := by
  unfold send keysFor
  by_cases hnone : l.half change = []
  · rw [if_pos hnone, hnone, List.map_nil, Relations.answered_nil]
  · rw [if_neg hnone]
    cases change with
    | map =>
      show (RelationStore.map parent l.pendingMaps s).2.related = _
      rw [RelationStore.related_map, pendingMaps, List.map_map]
      rfl
    | unmap =>
      show (RelationStore.unmap parent l.pendingUnmaps s).2.related = _
      rw [RelationStore.related_unmap, pendingUnmaps, List.map_map]
      rfl

/-- One half of a commit leaves the failures that are to come of the other one. -/
theorem failures_send (l : Ledger) (parent : ObjectRef) (change : Change) (s : RelationStore) :
    (l.send RelationStore.service parent change s).2.failures change.opposite =
      s.failures change.opposite := by
  unfold send
  by_cases hnone : l.half change = []
  · rw [if_pos hnone]
  · rw [if_neg hnone]
    cases change with
    | map =>
      show (RelationStore.map parent _ s).2.unmapFailures = s.unmapFailures
      unfold RelationStore.map
      cases s.mapFailures <;> rfl
    | unmap =>
      show (RelationStore.unmap parent _ s).2.mapFailures = s.mapFailures
      unfold RelationStore.unmap
      cases s.unmapFailures with
      | cons report rest => rfl
      | nil =>
        dsimp only
        cases l.pendingUnmaps.find? fun r => !s.related parent.key r.key <;> rfl

/-- **Neither half of a commit is answered differently behind the other one.** -/
theorem answer_send_after (h : Distinct l.intents) (parent : ObjectRef) (change : Change)
    (s : RelationStore) :
    (l.send RelationStore.service parent change.opposite
        (l.send RelationStore.service parent change s).2).1 =
      (l.send RelationStore.service parent change.opposite s).1 := by
  refine answer_send_congr (l.failures_send parent change s) fun key hkey => ?_
  rw [related_send]
  exact Relations.answered_of_notMem fun hmem => keysFor_disjoint h change hmem hkey

/-- **What a commit comes to** is told from the answers that each half would have as the first one,
whichever is the first. -/
theorem commit_of_distinct (h : Distinct l.intents) (first : Change) (parent : ObjectRef)
    (s : RelationStore) :
    let m := (l.send RelationStore.service parent .map s).1
    let u := (l.send RelationStore.service parent .unmap s).1
    let r := l.commit RelationStore.service first parent s
    r.1 = l.report m u ∧ r.2.1 = l.settle m u ∧
      r.2.2.related = (s.related.answered .map parent.key (l.keysFor .map) m).answered .unmap
        parent.key (l.keysFor .unmap) u := by
  intro m u
  -- the second answer is the one that would have come first
  cases first with
  | map =>
    have hunmap : (l.send RelationStore.service parent .unmap
        (l.send RelationStore.service parent .map s).2).1 = u := answer_send_after h parent .map s
    refine ⟨congrArg (l.report m) hunmap, congrArg (l.settle m) hunmap, ?_⟩
    show (l.send RelationStore.service parent .unmap
      (l.send RelationStore.service parent .map s).2).2.related = _
    rw [related_send, hunmap, related_send]
  | unmap =>
    have hmap : (l.send RelationStore.service parent .map
        (l.send RelationStore.service parent .unmap s).2).1 = m :=
      answer_send_after h parent .unmap s
    refine ⟨congrArg (l.report · u) hmap, congrArg (l.settle · u) hmap, ?_⟩
    show (l.send RelationStore.service parent .map
      (l.send RelationStore.service parent .unmap s).2).2.related = _
    rw [related_send, hmap, related_send]
    -- here the relationships were taken away first
    exact Relations.answered_comm (keysFor_disjoint h .map) m u

/-! ### Ledgers in use -/

/-- After any event a ledger has one intent at most for each object, if it had so before. -/
theorem distinct_apply (h : Distinct l.intents) (e : Event) : Distinct (e.apply l).intents := by
  -- what is spared is for some of the objects, and it stays for them with another direction
  have hkeys : ((l.intents.filter e.spares).map e.redirect).map (fun i => i.object.key) =
      (l.intents.filter e.spares).map fun i => i.object.key := List.map_map
  have hkept : Distinct ((l.intents.filter e.spares).map e.redirect) := by
    rw [Distinct, hkeys]
    exact h.sublist (List.filter_sublist.map _)
  rw [Event.intents_apply h]
  obtain hadds | ⟨i, rfl, hadds, hnone⟩ := e.adds_cases l
  · rwa [hadds, List.append_nil]
  · rw [hadds, Distinct, List.map_append, hkeys, List.nodup_append]
    refine ⟨hkeys ▸ hkept, List.nodup_singleton _, fun key hkey other hother => ?_⟩
    obtain ⟨j, hj, rfl⟩ := List.mem_map.1 hkey
    rw [List.mem_singleton.1 hother]
    exact hnone j (List.mem_of_mem_filter hj)

/-- **What every event keeps holds of a ledger all its life**, if it holds at the start. -/
theorem Life.run_invariant {σ : Type} (holds : Ledger → Prop)
    (hevent : ∀ l (e : Event), holds l → holds (e.apply l)) (operations : List (Operation σ))
    (life : Life σ) (hstart : holds life.ledger) : holds (life.run operations).ledger := by
  -- an operation comes to several events, of which each keeps what holds
  have hevents : ∀ (events : List Event) l, holds l → holds (events.foldl Event.apply l) := by
    intro events
    induction events with
    | nil => exact fun l hl => hl
    | cons e events ih => exact fun l hl => ih _ (hevent l e hl)
  induction operations generalizing life with
  | nil => exact hstart
  | cons op operations ih =>
    obtain ⟨events, -, hledger⟩ := op.exists_events life
    refine ih (op.perform life) ?_
    rw [hledger]
    exact hevents events life.ledger hstart

/-- **The halves of a commit commute.** However a ledger has come about, whatever the parent, and
whatever relationships the service in memory knows and failures are to come from it: a commit whose
call to map takes effect first and one whose call to unmap does report the same and leave the same
intents and relationships. These are the old ones with those to all that was to be mapped added, if
that did not fail, and without those to all that was to be unmapped, if that did not fail. -/
theorem halves_commute {σ : Type} (state : σ) (operations : List (Operation σ))
    (parent : ObjectRef) (s : RelationStore) :
    let l := ((Life.start state).run operations).ledger
    let r := l.commit RelationStore.service .map parent s
    let other := l.commit RelationStore.service .unmap parent s
    other.1 = r.1 ∧ other.2.1 = r.2.1 ∧ other.2.2.related = r.2.2.related ∧
      ∀ a b, r.2.2.related a b = true ↔
        (s.related a b = true ∨
            r.1.mapError = none ∧ a = parent.key ∧ ∃ t ∈ l.pendingMaps, t.object.key = b) ∧
          ¬ (r.1.unmapError = none ∧ a = parent.key ∧ ∃ t ∈ l.pendingUnmaps, t.key = b) := by
  intro l
  have hdistinct : Distinct l.intents :=
    Life.run_invariant (fun l => Distinct l.intents) (fun _ e h => distinct_apply h e) operations
      (.start state) List.nodup_nil
  obtain ⟨hreport, hleft, hrelated⟩ := commit_of_distinct hdistinct .map parent s
  obtain ⟨hreport', hleft', hrelated'⟩ := commit_of_distinct hdistinct .unmap parent s
  refine ⟨hreport'.trans hreport.symm, hleft'.trans hleft.symm, hrelated'.trans hrelated.symm,
    fun a b => ?_⟩
  have hmaps : b ∈ l.keysFor .map ↔ ∃ t ∈ l.pendingMaps, t.object.key = b := by
    simp [keysFor, pendingMaps, Intent.target]
  have hunmaps : b ∈ l.keysFor .unmap ↔ ∃ t ∈ l.pendingUnmaps, t.key = b := by
    simp [keysFor, pendingUnmaps]
  rw [hrelated, Relations.answered_answered_iff, hreport, hmaps, hunmaps]
  simp only [report, failure?_eq_none_iff]

/-- The halves of a commit would not commute for a ledger that held both changes of one object. -/
example :
    let object : ObjectRef := .plain 2 ⟨"Control"⟩
    let l : Ledger := ⟨[⟨object, .map, none⟩, ⟨object, .unmap, none⟩]⟩
    let parent : ObjectRef := .plain 1 ⟨"Program"⟩
    (l.commit RelationStore.service .map parent {}).1.unmapError = none ∧
      (l.commit RelationStore.service .unmap parent {}).1.unmapError =
        some (.notRelated parent object) := by decide

end Ledger

end ObjectMapping
