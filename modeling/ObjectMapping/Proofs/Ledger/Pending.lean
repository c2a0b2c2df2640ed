import Mathlib.Data.List.Forall2
import Mathlib.Data.List.Nodup
import ObjectMapping.Ledger

/-! # What is pending for each object

Changes are staged, discarded and committed for many objects in one ledger, yet for each object the
ledger is an automaton with three states: nothing is pending, or one of the two changes is. The
automaton (`Ledger.Signal.next`) sees the changes that are staged for its object, and nothing else
of them: not the other objects, nor the parts of a reference that do not tell objects apart. It goes
back to its first state when the ledger is discarded, or when its change has been committed.

Here the life of a ledger is its operations, from the empty ledger on, with all services and all
their answers, and the **events** that they come to. What the ledger holds is told from the events
alone.

* **`Ledger.Event.intents_apply`** — what one event does to a ledger that has one intent at most for
  each object.
* **`Ledger.Reflects.apply`** — what a ledger holds is still told from the events after one more.
* **`Ledger.reflects_run`** — what a ledger holds is told from the events of its life. -/

namespace ObjectMapping

/-- Why a kind of change failed. -/
def CommitReport.error? (r : CommitReport) : Change → Option MappingError
  | .map => r.mapError
  | .unmap => r.unmapError

namespace Ledger

/-! ### The automaton of one object -/

/-- A **signal** to the automaton of an object. -/
inductive Signal where
  /-- A change of the object is staged. -/
  | stage (change : Change)
  /-- The ledger is discarded. -/
  | discard
  /-- A kind of change has been committed. -/
  | commit (change : Change)

/-- The **automaton** of an object, whose states are the change that is pending or that there is
none: a change that is staged is pending, the opposite change takes it away. -/
def Signal.next : Option Change → Signal → Option Change
  | none, .stage change => some change
  | some pending, .stage change => if change = pending.opposite then none else some pending
  | _, .discard => none
  | pending, .commit change => if pending = some change then none else pending

/-- An **event** in the life of a ledger. -/
inductive Event where
  /-- An intent is staged. -/
  | staged (intent : Intent)
  /-- The ledger is discarded. -/
  | discarded
  /-- A kind of change has been committed. -/
  | committed (change : Change)

namespace Event

/-- The signal to the automaton of an object. Changes of other objects are no signals to it. -/
def signal? (key : ObjectKey) : Event → Option Signal
  | .staged i => if i.object.key = key then some (.stage i.change) else none
  | .discarded => some .discard
  | .committed change => some (.commit change)

/-- The direction that is given to the change of an object. -/
def direction? (key : ObjectKey) : Event → Option Direction
  | .staged i => if i.object.key = key then i.direction else none
  | _ => none

/-- What an event makes of a ledger. -/
def apply (l : Ledger) : Event → Ledger
  | .staged i => l.stageOne i.object i.change i.direction
  | .discarded => .empty
  | .committed change => l.without change

end Event

/-- What is **pending** for an object after events: the state of its automaton. -/
def pendingAfter (key : ObjectKey) (events : List Event) : Option Change :=
  (events.filterMap (Event.signal? key)).foldl Signal.next none

/-- The directions that were given to the changes of an object. -/
def directions (key : ObjectKey) (events : List Event) : List Direction :=
  events.filterMap (Event.direction? key)

/-- An intent **stands** from a place in the events on: it was staged there, when nothing was
pending for its object, and its change has been pending ever since. It has the last direction that
was given to the change of its object from there on. -/
structure Stands (events : List Event) (place : Nat) (i : Intent) : Prop where
  staged : ∃ direction, events[place]? = some (.staged { i with direction := direction })
  fresh : pendingAfter i.object.key (events.take place) = none
  lasts : ∀ n, place < n → n ≤ events.length →
    pendingAfter i.object.key (events.take n) = some i.change
  direction : i.direction = (directions i.object.key (events.drop place)).getLast?

/-- A ledger **reflects** events: for each object it holds the change that is pending and nothing
else, and its intents stand in the order in which they were put there. -/
structure Reflects (l : Ledger) (events : List Event) : Prop where
  pending : ∀ key, (l.intents.filter fun i => i.object.key = key).map Intent.change =
    (pendingAfter key events).toList
  stand : ∃ places : List Nat, places.Pairwise (· < ·) ∧
    List.Forall₂ (Stands events) places l.intents

/-! ### One event -/

/-- Intents that are for **distinct** objects. -/
def Distinct (intents : List Intent) : Prop := (intents.map fun i => i.object.key).Nodup

namespace Event

variable {key : ObjectKey} {l : Ledger} {e : Event} {i j : Intent} {events : List Event}

/-- The state of the automaton of an object after an event. -/
def next (key : ObjectKey) (pending : Option Change) (e : Event) : Option Change :=
  match e.signal? key with
  | some signal => signal.next pending
  | none => pending

/-- Whether an event leaves an intent pending. -/
def spares (e : Event) (i : Intent) : Bool := e.next i.object.key (some i.change) = some i.change

/-- What an event makes of an intent that it leaves pending. -/
def redirect (e : Event) (i : Intent) : Intent :=
  { i with direction := (e.direction? i.object.key).or i.direction }

/-- The intents that an event puts into a ledger. -/
def adds (l : Ledger) : Event → List Intent
  | .staged i => if l.intents.any fun j => j.object.key = i.object.key then [] else [i]
  | _ => []

/-- A change that is pending either stays so or is pending no longer. -/
theorem next_some (key : ObjectKey) (change : Change) (e : Event) :
    e.next key (some change) = some change ∨ e.next key (some change) = none := by
  unfold next
  split
  · next signal _ =>
    unfold Signal.next
    cases signal with
    | stage c =>
      by_cases h : c = change.opposite
      · exact .inr (if_pos h)
      · exact .inl (if_neg h)
    | discard => exact .inr rfl
    | commit c =>
      by_cases h : some change = some c
      · exact .inr (if_pos h)
      · exact .inl (if_neg h)
  · exact .inl rfl

/-- A staged intent spares all but the opposite change of its object. -/
theorem spares_staged : (staged i).spares j = !j.isFor i.object.key i.change.opposite := by
  by_cases hkey : i.object.key = j.object.key
  · have hnext : (staged i).next j.object.key (some j.change) =
        (Signal.stage i.change).next (some j.change) := by
      rw [next, signal?, if_pos hkey]
    rw [spares, hnext, Intent.isFor, hkey, Signal.next]
    cases i.change <;> cases j.change <;> simp [Change.opposite]
  · have hnext : (staged i).next j.object.key (some j.change) = some j.change := by
      rw [next, signal?, if_neg hkey]
    rw [spares, hnext, Intent.isFor]
    simp [Ne.symm hkey]

/-- A commit spares the other kind of change. -/
theorem spares_committed {change : Change} :
    (committed change).spares j = decide (j.change ≠ change) := by
  have hnext : (committed change).next j.object.key (some j.change) =
      (Signal.commit change).next (some j.change) := rfl
  rw [spares, hnext, Signal.next]
  by_cases h : j.change = change <;> simp [h]

/-- A discard spares nothing. -/
theorem spares_discarded : discarded.spares j = false := rfl

/-- An intent for another object keeps its direction. -/
theorem redirect_of_ne (h : j.object.key ≠ i.object.key) : (staged i).redirect j = j := by
  rw [redirect, direction?, if_neg (Ne.symm h)]
  rfl

/-- An intent for the same object takes the direction that is given to it. -/
theorem redirect_of_eq (h : j.object.key = i.object.key) :
    (staged i).redirect j = { j with direction := i.direction.or j.direction } := by
  rw [redirect, direction?, if_pos h.symm]

/-- A staged intent is not added if its object has one. -/
theorem adds_staged_of_any (h : ∃ j ∈ l.intents, j.object.key = i.object.key) :
    (staged i).adds l = [] := by
  obtain ⟨j, hj, hkey⟩ := h
  rw [adds, if_pos (List.any_eq_true.2 ⟨j, hj, by simpa using hkey⟩)]

/-- A staged intent is added if its object has none. -/
theorem adds_staged_of_forall (h : ∀ j ∈ l.intents, j.object.key ≠ i.object.key) :
    (staged i).adds l = [i] := by
  rw [adds, if_neg (by simpa using h)]

end Event

namespace Distinct

variable {intents rest : List Intent} {i j : Intent} {key : ObjectKey} {change : Change}

/-- Two intents for one object are the same. -/
theorem eq (h : Distinct intents) (hi : i ∈ intents) (hj : j ∈ intents)
    (hkey : i.object.key = j.object.key) : i = j :=
  List.inj_on_of_nodup_map h hi hj hkey

/-- Behind an intent for a change of an object there is no other one for it. -/
theorem isFor_eq_false (h : Distinct (j :: rest)) (hj : j.isFor key change = true) (hi : i ∈ rest) :
    i.isFor key change = false := by
  rw [Distinct, List.map_cons, List.nodup_cons] at h
  simp only [Intent.isFor, Bool.and_eq_true, beq_iff_eq] at hj
  have hne : i.object.key ≠ key := by
    rw [← hj.2]
    exact fun heq => h.1 (heq ▸ List.mem_map_of_mem hi)
  simp [Intent.isFor, hne]

/-- Taking out the first intent for a change takes out all of them. -/
theorem eraseP_eq_filter (h : Distinct intents) :
    intents.eraseP (Intent.isFor key change) = intents.filter fun j => !j.isFor key change := by
  induction intents with
  | nil => rfl
  | cons j rest ih =>
    by_cases hj : j.isFor key change = true
    · have hrest : ∀ i ∈ rest, (!i.isFor key change) = true := fun i hi => by
        rw [h.isFor_eq_false hj hi]
        rfl
      rw [List.eraseP_cons_of_pos hj, List.filter_cons_of_neg (by simp [hj]),
        List.filter_eq_self.2 hrest]
    · rw [List.eraseP_cons_of_neg hj, List.filter_cons_of_pos (by simp [hj]),
        ih (List.nodup_cons.1 h).2]

/-- Giving a direction to the first intent for a change gives it to all of them. -/
theorem redirect_eq_map (h : Distinct intents) {direction : Option Direction} :
    Ledger.redirect key change direction intents = intents.map fun j =>
      if j.isFor key change then { j with direction := direction.or j.direction } else j := by
  induction intents with
  | nil => rfl
  | cons j rest ih =>
    rw [Ledger.redirect, List.map_cons]
    by_cases hj : j.isFor key change = true
    · -- the others are for other objects and stay as they are
      rw [if_pos hj, if_pos hj]
      congr 1
      refine (List.map_id rest).symm.trans (List.map_congr_left fun i hi => ?_)
      rw [h.isFor_eq_false hj hi]
      rfl
    · rw [if_neg hj, if_neg hj, ih (List.nodup_cons.1 h).2]

end Distinct

namespace Event

variable {l : Ledger} {i j : Intent}

/-- A change of an object is pending if there is an intent for it. -/
theorem isPending_iff {key : ObjectKey} {change : Change} :
    l.isPending key change = true ↔ ∃ j ∈ l.intents, j.change = change ∧ j.object.key = key := by
  simp [isPending, Intent.isFor]

/-- Intents for other objects keep their directions. -/
theorem map_redirect_of_forall {intents : List Intent}
    (h : ∀ j ∈ intents, j.object.key ≠ i.object.key) :
    intents.map (staged i).redirect = intents :=
  (List.map_congr_left fun j hj => redirect_of_ne (h j hj)).trans (List.map_id _)

/-- What staging an intent does to a ledger. -/
theorem intents_stageOne (hl : Distinct l.intents) :
    (l.stageOne i.object i.change i.direction).intents =
      (l.intents.filter (staged i).spares).map (staged i).redirect ++ (staged i).adds l := by
  have hspares : (staged i).spares = fun j => !j.isFor i.object.key i.change.opposite :=
    funext fun j => spares_staged
  unfold stageOne
  by_cases hopposite : l.isPending i.object.key i.change.opposite = true
  · -- the opposite is taken out, and it was the only intent for the object
    obtain ⟨o, ho, hchange, hkey⟩ := isPending_iff.1 hopposite
    rw [if_pos hopposite, adds_staged_of_any ⟨o, ho, hkey⟩, List.append_nil, hspares,
      ← hl.eraseP_eq_filter]
    refine (map_redirect_of_forall fun j hj hjkey => ?_).symm
    rw [hl.eraseP_eq_filter] at hj
    obtain ⟨hj, hno⟩ := List.mem_filter.1 hj
    obtain rfl := hl.eq hj ho (hjkey.trans hkey.symm)
    simp [Intent.isFor, hchange, hkey] at hno
  · -- without the opposite all intents are spared
    have hall : l.intents.filter (staged i).spares = l.intents := by
      refine List.filter_eq_self.2 fun j hj => ?_
      rw [spares_staged, Bool.not_eq_true', Bool.eq_false_iff]
      intro hfor
      simp only [Intent.isFor, Bool.and_eq_true, beq_iff_eq] at hfor
      exact hopposite (isPending_iff.2 ⟨j, hj, hfor⟩)
    rw [if_neg hopposite, hall]
    by_cases hsame : l.isPending i.object.key i.change = true
    · -- the intent that is there gets the direction
      obtain ⟨o, ho, hchange, hkey⟩ := isPending_iff.1 hsame
      rw [if_pos hsame, adds_staged_of_any ⟨o, ho, hkey⟩, List.append_nil, hl.redirect_eq_map]
      refine List.map_congr_left fun j hj => ?_
      by_cases hjkey : j.object.key = i.object.key
      · obtain rfl := hl.eq hj ho (hjkey.trans hkey.symm)
        rw [redirect_of_eq hjkey, if_pos (by simp [Intent.isFor, hchange, hkey])]
      · rw [redirect_of_ne hjkey, if_neg (by simp [Intent.isFor, hjkey])]
    · -- there is none, for either change, and it is added
      have hnone : ∀ j ∈ l.intents, j.object.key ≠ i.object.key := by
        intro j hj hkey
        have hchange : j.change = i.change ∨ j.change = i.change.opposite := by
          cases i.change <;> cases j.change <;> decide
        rcases hchange with h | h
        · exact hsame (isPending_iff.2 ⟨j, hj, h, hkey⟩)
        · exact hopposite (isPending_iff.2 ⟨j, hj, h, hkey⟩)
      rw [if_neg hsame, adds_staged_of_forall hnone, map_redirect_of_forall hnone]

/-- **What an event does to a ledger** whose intents are for distinct objects. -/
theorem intents_apply (hl : Distinct l.intents) (e : Event) :
    (e.apply l).intents = (l.intents.filter e.spares).map e.redirect ++ e.adds l := by
  cases e with
  | staged i => exact intents_stageOne hl
  | discarded =>
    have hnone : l.intents.filter discarded.spares = [] :=
      List.filter_eq_nil_iff.2 fun j _ => by rw [spares_discarded]; exact Bool.false_ne_true
    rw [hnone]
    rfl
  | committed change =>
    have hspares : (committed change).spares = fun j => decide (j.change ≠ change) :=
      funext fun j => spares_committed
    have hredirect : (committed change).redirect = id := rfl
    rw [hspares, hredirect, List.map_id]
    exact (List.append_nil _).symm

end Event

/-! ### What is pending -/

variable {key : ObjectKey} {l : Ledger} {e : Event} {i : Intent} {events : List Event} {place : Nat}

/-- The state of an automaton after one more event. -/
theorem pendingAfter_append_singleton :
    pendingAfter key (events ++ [e]) = e.next key (pendingAfter key events) := by
  unfold pendingAfter Event.next
  rw [List.filterMap_append, List.foldl_append]
  cases h : e.signal? key with
  | none => rw [List.filterMap_cons_none h]; rfl
  | some signal => rw [List.filterMap_cons_some h]; rfl

/-- If one change is pending for each object at most, the intents are for distinct objects. -/
theorem Reflects.distinct (h : l.Reflects events) : Distinct l.intents := by
  refine List.nodup_iff_count_le_one.2 fun key => ?_
  have hlength := congrArg List.length (h.pending key)
  rw [List.length_map] at hlength
  rw [List.count_eq_countP, List.countP_map, List.countP_eq_length_filter]
  have hfilter : l.intents.filter ((fun k => k == key) ∘ fun i => i.object.key) =
      l.intents.filter fun i => decide (i.object.key = key) :=
    List.filter_congr fun i _ => by simp [Bool.beq_eq_decide_eq]
  rw [hfilter, hlength]
  cases pendingAfter key events with
  | none => exact Nat.zero_le 1
  | some change => exact Nat.le_refl 1

/-- A staged intent adds nothing for another object. -/
theorem Event.filter_adds_of_ne (h : i.object.key ≠ key) :
    ((Event.staged i).adds l).filter (fun j => j.object.key = key) = [] := by
  rw [Event.adds]
  split
  · rfl
  · exact List.filter_eq_nil_iff.2 fun j hj => by simpa [List.mem_singleton.1 hj] using h

/-- For an object that has an intent nothing is added. -/
theorem Event.filter_adds_of_exists (h : ∃ j ∈ l.intents, j.object.key = key) :
    (e.adds l).filter (fun j => j.object.key = key) = [] := by
  cases e with
  | staged i =>
    by_cases hi : i.object.key = key
    · rw [Event.adds_staged_of_any (hi ▸ h), List.filter_nil]
    · exact Event.filter_adds_of_ne hi
  | _ => rfl

/-- For an object without an intent what comes to be pending is added. -/
theorem Event.filter_adds_of_forall (h : ∀ j ∈ l.intents, j.object.key ≠ key) :
    ((e.adds l).filter fun j => j.object.key = key).map Intent.change =
      (e.next key none).toList := by
  cases e with
  | staged i =>
    by_cases hi : i.object.key = key
    · rw [Event.adds_staged_of_forall (hi ▸ h), Event.next, Event.signal?, if_pos hi]
      simp [hi, Signal.next]
    · rw [Event.filter_adds_of_ne hi, Event.next, Event.signal?, if_neg hi]
      rfl
  | discarded => rfl
  | committed change => rfl

/-- **What is pending after one more event is what the ledger then holds.** -/
theorem Reflects.pending_apply (h : l.Reflects events) (e : Event) (key : ObjectKey) :
    ((e.apply l).intents.filter fun i => i.object.key = key).map Intent.change =
      (pendingAfter key (events ++ [e])).toList := by
  have hkept : (((l.intents.filter e.spares).map e.redirect).filter fun i =>
      i.object.key = key).map Intent.change =
        ((l.intents.filter fun i => i.object.key = key).filter e.spares).map Intent.change := by
    rw [List.filter_map, List.map_map, List.filter_filter, List.filter_filter]
    congr 1
    exact List.filter_congr fun i _ => Bool.and_comm _ _
  have hpending := h.pending key
  rw [Event.intents_apply h.distinct, List.filter_append, List.map_append, hkept,
    pendingAfter_append_singleton]
  cases hbefore : pendingAfter key events with
  | none =>
    rw [hbefore, Option.toList_none, List.map_eq_nil_iff] at hpending
    have hnone : ∀ j ∈ l.intents, j.object.key ≠ key := by
      simpa using List.filter_eq_nil_iff.1 hpending
    rw [hpending, Event.filter_adds_of_forall hnone]
    rfl
  | some change =>
    rw [hbefore, Option.toList_some] at hpending
    obtain ⟨j, hj, rfl⟩ := List.map_eq_singleton_iff.1 hpending
    have hmem : j ∈ l.intents.filter fun i => i.object.key = key := by
      rw [hj]
      exact List.mem_singleton_self j
    obtain ⟨hmem, hkey⟩ := List.mem_filter.1 hmem
    have hkey : j.object.key = key := by simpa using hkey
    rw [hj, Event.filter_adds_of_exists ⟨j, hmem, hkey⟩, List.map_nil, List.append_nil]
    -- the intent for the object is spared, or the change is pending no longer
    by_cases hspares : e.spares j = true
    · have hnext : e.next key (some j.change) = some j.change := by
        rw [← hkey]
        simpa [Event.spares] using hspares
      rw [List.filter_cons_of_pos hspares, hnext]
      rfl
    · have hnext : e.next key (some j.change) = none := by
        refine (e.next_some key j.change).resolve_left fun heq => hspares ?_
        rw [← hkey] at heq
        simpa [Event.spares] using heq
      rw [List.filter_cons_of_neg hspares, hnext]
      rfl

/-! ### Where intents stand -/

/-- The place from which an intent stands is among the events. -/
theorem Stands.lt_length (h : Stands events place i) : place < events.length := by
  obtain ⟨direction, hstaged⟩ := h.staged
  exact (List.getElem?_eq_some_iff.1 hstaged).1

/-- The places from which intents stand are among the events. -/
theorem lt_length_of_mem {places : List Nat} {intents : List Intent}
    (h : List.Forall₂ (Stands events) places intents) (hplace : place ∈ places) :
    place < events.length := by
  induction h with
  | nil => cases hplace
  | cons hi _ ih =>
    rcases List.mem_cons.1 hplace with rfl | hplace
    · exact hi.lt_length
    · exact ih hplace

/-- **An intent that an event spares goes on standing.** -/
theorem Stands.append (h : Stands events place i) (he : e.spares i = true) :
    Stands (events ++ [e]) place (e.redirect i) where
  staged := by
    obtain ⟨direction, hstaged⟩ := h.staged
    refine ⟨direction, ?_⟩
    rw [List.getElem?_append_left h.lt_length, hstaged]
    rfl
  fresh := by
    rw [List.take_append_of_le_length (Nat.le_of_lt h.lt_length)]
    exact h.fresh
  lasts := by
    intro n hn hle
    rw [List.length_append, List.length_singleton] at hle
    by_cases hlast : n ≤ events.length
    · rw [List.take_append_of_le_length hlast]
      exact h.lasts n hn hlast
    · -- after the new event it is still pending, as the event spares it
      have hbefore := h.lasts events.length h.lt_length (Nat.le_refl _)
      rw [List.take_length] at hbefore
      rw [List.take_of_length_le (by simp; omega)]
      show pendingAfter i.object.key (events ++ [e]) = some i.change
      rw [pendingAfter_append_singleton, hbefore]
      simpa [Event.spares] using he
  direction := by
    rw [List.drop_append_of_le_length (Nat.le_of_lt h.lt_length), directions, List.filterMap_append,
      List.getLast?_append]
    have hlast : (List.filterMap (Event.direction? i.object.key) [e]).getLast? =
        e.direction? i.object.key := by
      cases hdirection : e.direction? i.object.key with
      | none => rw [List.filterMap_cons_none hdirection]; rfl
      | some direction => rw [List.filterMap_cons_some hdirection]; rfl
    show (e.direction? i.object.key).or i.direction =
      (List.filterMap (Event.direction? i.object.key) [e]).getLast?.or
        (directions i.object.key (events.drop place)).getLast?
    rw [hlast, ← h.direction]

/-- An intent that is staged when nothing is pending for its object stands from there on. -/
theorem stands_of_staged (h : pendingAfter i.object.key events = none) :
    Stands (events ++ [.staged i]) events.length i where
  staged := ⟨i.direction, by rw [List.getElem?_concat_length]⟩
  fresh := by rwa [List.take_left]
  lasts := by
    intro n hn hle
    rw [List.length_append, List.length_singleton] at hle
    rw [List.take_of_length_le (by simp; omega), pendingAfter_append_singleton, h, Event.next,
      Event.signal?, if_pos rfl]
    rfl
  direction := by
    rw [List.drop_left]
    cases hdirection : i.direction with
    | none => simp [directions, Event.direction?, hdirection]
    | some direction => simp [directions, Event.direction?, hdirection]

/-- The intents that an event spares stand where they stood. -/
theorem exists_places_spared {places : List Nat} {intents : List Intent} (e : Event)
    (h : List.Forall₂ (Stands events) places intents) :
    ∃ kept : List Nat, kept.Sublist places ∧
      List.Forall₂ (Stands (events ++ [e])) kept ((intents.filter e.spares).map e.redirect) := by
  induction h with
  | nil => exact ⟨[], .slnil, .nil⟩
  | @cons place i places intents hi _ ih =>
    obtain ⟨kept, hsub, hstand⟩ := ih
    by_cases hspares : e.spares i = true
    · rw [List.filter_cons_of_pos hspares, List.map_cons]
      exact ⟨place :: kept, hsub.cons_cons place, .cons (hi.append hspares) hstand⟩
    · rw [List.filter_cons_of_neg hspares]
      exact ⟨kept, hsub.cons place, hstand⟩

/-- An event adds nothing, or the intent that it stages for an object without one. -/
theorem Event.adds_cases (l : Ledger) (e : Event) :
    e.adds l = [] ∨ ∃ i, e = .staged i ∧ e.adds l = [i] ∧
      ∀ j ∈ l.intents, j.object.key ≠ i.object.key := by
  cases e with
  | staged i =>
    by_cases h : ∃ j ∈ l.intents, j.object.key = i.object.key
    · exact .inl (adds_staged_of_any h)
    · have hnone : ∀ j ∈ l.intents, j.object.key ≠ i.object.key := fun j hj hkey => h ⟨j, hj, hkey⟩
      exact .inr ⟨i, rfl, adds_staged_of_forall hnone, hnone⟩
  | _ => exact .inl rfl

namespace Reflects

/-- Nothing is pending for an object without an intent. -/
theorem pendingAfter_eq_none (h : l.Reflects events)
    (hnone : ∀ j ∈ l.intents, j.object.key ≠ key) : pendingAfter key events = none := by
  have hpending := h.pending key
  rw [List.filter_eq_nil_iff.2 fun j hj => by simpa using hnone j hj, List.map_nil] at hpending
  exact Option.toList_eq_nil_iff.1 hpending.symm

/-- The empty ledger reflects that nothing has happened. -/
theorem empty : Reflects Ledger.empty [] where
  pending _ := rfl
  stand := ⟨[], .nil, .nil⟩

/-- **What a ledger holds is told from the events, one event after the other.** -/
theorem apply (h : l.Reflects events) (e : Event) : (e.apply l).Reflects (events ++ [e]) where
  pending := h.pending_apply e
  stand := by
    obtain ⟨places, hincreasing, hstand⟩ := h.stand
    obtain ⟨kept, hsub, hkept⟩ := exists_places_spared e hstand
    rw [Event.intents_apply h.distinct]
    obtain hadds | ⟨i, rfl, hadds, hnone⟩ := e.adds_cases l
    · rw [hadds, List.append_nil]
      exact ⟨kept, hincreasing.sublist hsub, hkept⟩
    · -- the new intent stands behind all others
      rw [hadds]
      refine ⟨kept ++ [events.length], ?_, List.rel_append hkept
        (.cons (stands_of_staged (h.pendingAfter_eq_none hnone)) .nil)⟩
      refine List.pairwise_append.2 ⟨hincreasing.sublist hsub, List.pairwise_singleton _ _, ?_⟩
      intro place hplace n hn
      rw [List.mem_singleton.1 hn]
      exact lt_length_of_mem hstand (hsub.subset hplace)

/-- What a ledger holds is told from the events, also after several more. -/
theorem foldl_apply (h : l.Reflects events) (more : List Event) :
    (more.foldl Event.apply l).Reflects (events ++ more) := by
  induction more generalizing l events with
  | nil => rwa [List.append_nil]
  | cons e more ih =>
    have hnext := ih (h.apply e)
    rwa [List.append_assoc, List.singleton_append] at hnext

end Reflects

/-! ### The life of a ledger -/

variable {σ : Type}

/-- An **operation** on a ledger. Each commit is for a parent of its own and with a service of its
own. -/
inductive Operation (σ : Type) where
  /-- Stages a change of objects. -/
  | stage (objects : List ObjectRef) (change : Change)
  /-- Stages the mapping of targets. -/
  | stageTargets (targets : List MappingTarget)
  /-- Stages one change. -/
  | stageOne (object : ObjectRef) (change : Change) (direction : Option Direction)
  /-- Drops what is staged. -/
  | discard
  /-- Commits what is staged. -/
  | commit (service : MappingService σ) (first : Change) (parent : ObjectRef)

/-- The **life of a ledger** up to a moment. -/
structure Life (σ : Type) where
  /-- The ledger at the moment. -/
  ledger : Ledger
  /-- The state of the services at the moment. -/
  state : σ
  /-- The events up to the moment. -/
  events : List Event

/-- A life at its start: nothing is staged and nothing has happened. -/
def Life.start (state : σ) : Life σ := ⟨.empty, state, []⟩

/-- The events that a commit comes to, as its report tells: each kind of change that did not fail
has been committed. -/
def Event.ofReport (r : CommitReport) : List Event :=
  ([.map, .unmap].filter fun change => (r.error? change).isNone).map .committed

/-- A life after one more operation. -/
def Operation.perform (life : Life σ) : Operation σ → Life σ
  | .stage objects change =>
    { life with
      ledger := life.ledger.stage objects change
      events := life.events ++ objects.map fun r => .staged ⟨r, change, none⟩ }
  | .stageTargets targets =>
    { life with
      ledger := life.ledger.stageTargets targets
      events := life.events ++ targets.map fun t => .staged ⟨t.object, .map, t.direction⟩ }
  | .stageOne object change direction =>
    { life with
      ledger := life.ledger.stageOne object change direction
      events := life.events ++ [.staged ⟨object, change, direction⟩] }
  | .discard => { life with ledger := .empty, events := life.events ++ [.discarded] }
  | .commit service first parent =>
    let (report, ledger, state) := life.ledger.commit service first parent life.state
    { ledger, state, events := life.events ++ Event.ofReport report }

/-- A life after operations, one after the other. -/
def Life.run (life : Life σ) (operations : List (Operation σ)) : Life σ :=
  operations.foldl Operation.perform life

/-- A commit leaves and reports what comes of two answers. -/
theorem exists_answers_of_commit (l : Ledger) (service : MappingService σ) (first : Change)
    (parent : ObjectRef) (s : σ) :
    ∃ mapAnswer unmapAnswer, (l.commit service first parent s).1 = l.report mapAnswer unmapAnswer ∧
      (l.commit service first parent s).2.1 = l.settle mapAnswer unmapAnswer := by
  cases first with
  | map => exact ⟨_, _, rfl, rfl⟩
  | unmap => exact ⟨_, _, rfl, rfl⟩

/-- What a commit leaves is what its events make of the ledger. -/
theorem settle_eq_foldl (l : Ledger) (mapAnswer unmapAnswer : ServiceAnswer) :
    l.settle mapAnswer unmapAnswer =
      (Event.ofReport (l.report mapAnswer unmapAnswer)).foldl Event.apply l := by
  cases mapAnswer <;> cases unmapAnswer <;> rfl

/-- **What an operation does to the ledger is what its events do to it.** -/
theorem Operation.exists_events (life : Life σ) (op : Operation σ) :
    ∃ more, (op.perform life).events = life.events ++ more ∧
      (op.perform life).ledger = more.foldl Event.apply life.ledger := by
  cases op with
  | stage objects change =>
    refine ⟨_, rfl, ?_⟩
    rw [List.foldl_map]
    rfl
  | stageTargets targets =>
    refine ⟨_, rfl, ?_⟩
    rw [List.foldl_map]
    rfl
  | stageOne object change direction => exact ⟨_, rfl, rfl⟩
  | discard => exact ⟨_, rfl, rfl⟩
  | commit service first parent =>
    obtain ⟨mapAnswer, unmapAnswer, hreport, hledger⟩ :=
      exists_answers_of_commit life.ledger service first parent life.state
    refine ⟨Event.ofReport (life.ledger.report mapAnswer unmapAnswer), ?_, ?_⟩
    · rw [← hreport]
      rfl
    · rw [← settle_eq_foldl, ← hledger]
      rfl

/-- **What a ledger holds is told from the events of its life.** After any operations, with any
answers of the services, the ledger holds for each object the one change in whose state the
automaton of the object is, or nothing. Its intents have the references with which they were put
there and the last direction that was given to them since, and they are in the order in which they
were put there. -/
theorem reflects_run (state : σ) (operations : List (Operation σ)) :
    ((Life.start state).run operations).ledger.Reflects
      ((Life.start state).run operations).events := by
  have run : ∀ (operations : List (Operation σ)) (life : Life σ),
      life.ledger.Reflects life.events →
        (life.run operations).ledger.Reflects (life.run operations).events := by
    intro operations
    induction operations with
    | nil => exact fun life h => h
    | cons op operations ih =>
      intro life h
      obtain ⟨more, hevents, hledger⟩ := op.exists_events life
      refine ih (op.perform life) ?_
      rw [hevents, hledger]
      exact h.foldl_apply more
  exact run operations (Life.start state) Reflects.empty

end Ledger

end ObjectMapping
