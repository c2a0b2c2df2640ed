import ObjectMapping.Proofs.Rules.Diagnosis

/-! # Moments of a resolution

The resolver calls itself, by name and for declarations written in place, and changes its state on
the way. Here a resolution is taken apart into moments. A moment is the state together with the
calls that are open, each with the mixins that it has still to go through (`Resolver.Moment`); from
one moment to the next a mixin is passed, or a call is opened or closed (`Resolver.Next`). A run of
the resolver goes from moment to moment, so what each step keeps is true throughout.

* **`Resolver.Next.inOrder`** — a step keeps the stack, the resolved names and the names taken up so
  far in order.
* **`Runs.leads`** — every run is a way from one moment to another.
* **`sound_until_end`** — the resolution of a table is in order at every moment, takes up each
  declared name once, and ends. -/

namespace ObjectMapping

open Relation

namespace Resolver

/-! ### Calls and moments -/

/-- A **call** of the resolver. -/
inductive Call where
  /-- The names of a table are resolved in turn. -/
  | table
  /-- A name has been taken up, and its declaration is gone through. -/
  | named (name : TypeName) (d : Declaration)
  /-- A declaration written in place is gone through. -/
  | inline (owner : TypeName) (d : Declaration)

/-- The type to which a call reports mixins that it lacks; a table lacks none of its own names. -/
def Call.owner : Call → TypeName
  | .table => ⟨""⟩
  | .named name _ => name
  | .inline owner _ => owner

/-- The name that a call has taken up, if it has. -/
def Call.names : Call → List TypeName
  | .named name _ => [name]
  | .table | .inline _ _ => []

/-- A **frame**: an open call, with the mixins that are still to come and the rules put together
from those before. -/
structure Frame where
  /-- The call. -/
  call : Call
  /-- The mixins that are still to come. -/
  mixins : List Mixin
  /-- The rules so far. -/
  rules : PartialRules

/-- A **moment** of a resolution. -/
structure Moment where
  /-- The state. -/
  state : Resolver
  /-- The open calls, innermost first. -/
  frames : List Frame

/-- The first moment of the resolution of a table. -/
def Moment.start (table : RuleTable) : Moment :=
  ⟨{}, [⟨.table, table.keys.map .named, .empty⟩]⟩

/-- The names that open calls have taken up, outermost first. -/
def takenUp : List Frame → List TypeName
  | [] => []
  | f :: outer => takenUp outer ++ f.call.names

/-- **One step** of a resolution. -/
inductive Next (table : RuleTable) : Moment → Moment → Prop where
  /-- A mixin that is not declared is reported. -/
  | undeclared {r : Resolver} {call : Call} {name : TypeName} {rest : List Mixin}
      {p : PartialRules} {outer : List Frame} (hname : table.contains name = false) :
      Next table ⟨r, ⟨call, .named name :: rest, p⟩ :: outer⟩
        ⟨r.report (.unknownMixin call.owner name), ⟨call, rest, p⟩ :: outer⟩
  /-- A name that has been resolved is looked up. -/
  | known {r : Resolver} {call : Call} {name : TypeName} {rest : List Mixin} {p q : PartialRules}
      {outer : List Frame} (hname : table.contains name = true)
      (hq : r.done.get? name = some q) :
      Next table ⟨r, ⟨call, .named name :: rest, p⟩ :: outer⟩ ⟨r, ⟨call, rest, p.merge q⟩ :: outer⟩
  /-- A name on the stack closes a cycle, which is reported. -/
  | cycle {r : Resolver} {call : Call} {name : TypeName} {rest : List Mixin} {p : PartialRules}
      {outer : List Frame} (hname : table.contains name = true) (hq : r.done.get? name = none)
      (hstack : name ∈ r.stack) :
      Next table ⟨r, ⟨call, .named name :: rest, p⟩ :: outer⟩
        ⟨r.report (.mixinCycle (r.cycleThrough name)), ⟨call, rest, p⟩ :: outer⟩
  /-- Any other declared name is taken up, and a call for its declaration is opened. -/
  | taken {r : Resolver} {call : Call} {name : TypeName} {d : Declaration} {rest : List Mixin}
      {p : PartialRules} {outer : List Frame} (hname : table.get? name = some d)
      (hq : r.done.get? name = none) (hstack : name ∉ r.stack) :
      Next table ⟨r, ⟨call, .named name :: rest, p⟩ :: outer⟩
        ⟨r.enter name, ⟨.named name d, d.mixins, .empty⟩ :: ⟨call, rest, p⟩ :: outer⟩
  /-- When the declaration of a name has been gone through its rules are kept, and they are merged
  into those of the call around it. -/
  | left {r : Resolver} {call : Call} {name : TypeName} {d : Declaration} {rest : List Mixin}
      {p inherited : PartialRules} {outer : List Frame} :
      Next table ⟨r, ⟨.named name d, [], inherited⟩ :: ⟨call, rest, p⟩ :: outer⟩
        ⟨r.leave name (inherited.complete name d),
          ⟨call, rest, p.merge (inherited.complete name d)⟩ :: outer⟩
  /-- A call for a declaration written in place is opened. -/
  | inline {r : Resolver} {call : Call} {d : Declaration} {rest : List Mixin} {p : PartialRules}
      {outer : List Frame} :
      Next table ⟨r, ⟨call, .inline d :: rest, p⟩ :: outer⟩
        ⟨r, ⟨.inline call.owner d, d.mixins, .empty⟩ :: ⟨call, rest, p⟩ :: outer⟩
  /-- When a declaration written in place has been gone through its rules are merged in. -/
  | closed {r : Resolver} {call : Call} {owner : TypeName} {d : Declaration} {rest : List Mixin}
      {p inherited : PartialRules} {outer : List Frame} :
      Next table ⟨r, ⟨.inline owner d, [], inherited⟩ :: ⟨call, rest, p⟩ :: outer⟩
        ⟨r, ⟨call, rest, p.merge (inherited.complete owner d)⟩ :: outer⟩
  /-- A transform edits the rules. -/
  | transform {r : Resolver} {call : Call} {t : Transform} {rest : List Mixin} {p : PartialRules}
      {outer : List Frame} :
      Next table ⟨r, ⟨call, .transform t :: rest, p⟩ :: outer⟩ ⟨r, ⟨call, rest, t.apply p⟩ :: outer⟩

/-- A moment is **reached** in the resolution of a table. -/
abbrev Reached (table : RuleTable) (m : Moment) : Prop :=
  ReflTransGen (Next table) (.start table) m

variable {table : RuleTable} {m m' last : Moment} {r : Resolver} {name : TypeName}

/-- **What comes next is decided** at every moment. -/
theorem Next.unique {m₁ m₂ : Moment} (h : Next table m m₁) (h' : Next table m m₂) : m₁ = m₂ := by
  cases h with
  | undeclared hname =>
    cases h' with
    | undeclared => rfl
    | known hname' => rw [hname] at hname'; cases hname'
    | cycle hname' => rw [hname] at hname'; cases hname'
    | taken hname' => rw [contains_of_get? hname'] at hname; cases hname
  | known hname hq =>
    cases h' with
    | undeclared hname' => rw [hname] at hname'; cases hname'
    | known _ hq' => cases hq.symm.trans hq'; rfl
    | cycle _ hq' => cases hq.symm.trans hq'
    | taken _ hq' => cases hq.symm.trans hq'
  | cycle hname hq hstack =>
    cases h' with
    | undeclared hname' => rw [hname] at hname'; cases hname'
    | known _ hq' => cases hq.symm.trans hq'
    | cycle => rfl
    | taken _ _ hstack' => exact absurd hstack hstack'
  | taken hname hq hstack =>
    cases h' with
    | undeclared hname' => rw [contains_of_get? hname] at hname'; cases hname'
    | known _ hq' => cases hq.symm.trans hq'
    | cycle _ _ hstack' => exact absurd hstack' hstack
    | taken hname' => cases hname.symm.trans hname'; rfl
  | left => cases h'; rfl
  | inline => cases h'; rfl
  | closed => cases h'; rfl
  | transform => cases h'; rfl

/-- Where one way leads to an end there is no endless one. -/
theorem acc_of_ends (h : ReflTransGen (Next table) m last) (hlast : ∀ m', ¬ Next table last m') :
    Acc (fun m' m => Next table m m') m := by
  induction h using ReflTransGen.head_induction_on with
  | refl => exact ⟨_, fun m' hnext => absurd hnext (hlast m')⟩
  | head hnext _ ih => exact ⟨_, fun m' hnext' => hnext.unique hnext' ▸ ih⟩

/-! ### What holds at every moment -/

/-- A state is **sound**: the names on the stack are different, none of them is resolved yet, and
each mixes in the next; and the names that have been taken up so far are declared, each has been
taken up once, and they are those on the stack and those that are resolved. -/
structure Sound (table : RuleTable) (r : Resolver) : Prop where
  nodup_stack : r.stack.Nodup
  unresolved : ∀ name ∈ r.stack, r.done.get? name = none
  linked : r.stack.IsChain (Mixes table)
  nodup_entered : r.entered.Nodup
  declared : ∀ name ∈ r.entered, table.contains name = true
  mem_entered : ∀ name, name ∈ r.entered ↔ name ∈ r.stack ∨ r.done.contains name = true

namespace Sound

/-- Before anything is resolved the state is sound. -/
theorem start : Sound table {} where
  nodup_stack := List.nodup_nil
  unresolved := nofun
  linked := List.isChain_nil
  nodup_entered := List.nodup_nil
  declared := nofun
  mem_entered := by simp [SortedMap.contains]

/-- A report changes neither the stack nor what is resolved. -/
theorem report (h : Sound table r) (d : Diagnostic) : Sound table (r.report d) := by
  obtain ⟨hnodup, hunresolved, hlinked, hentered, hdeclared, hmem⟩ := h
  constructor <;> simpa

/-- Taking up a name keeps the state sound, if the name is neither resolved nor on the stack and
continues the stack. -/
theorem enter (h : Sound table r) (hname : table.contains name = true)
    (hq : r.done.get? name = none) (hstack : name ∉ r.stack)
    (hcontinues : Continues table r.stack name) : Sound table (r.enter name) where
  nodup_stack := nodup_stack_enter h.nodup_stack hstack
  unresolved m hm := by
    obtain hm | hm := List.mem_append.1 hm
    · exact h.unresolved m hm
    · exact List.mem_singleton.1 hm ▸ hq
  linked := hcontinues
  nodup_entered := by
    have hnew : name ∉ r.entered := by simp [h.mem_entered, hstack, SortedMap.contains, hq]
    show (r.entered ++ [name]).Nodup
    rw [← List.concat_eq_append]
    exact h.nodup_entered.concat hnew
  declared m hm := by
    obtain hm | hm := List.mem_append.1 hm
    · exact h.declared m hm
    · exact List.mem_singleton.1 hm ▸ hname
  mem_entered m := by
    show m ∈ r.entered ++ [name] ↔ m ∈ r.stack ++ [name] ∨ r.done.contains m = true
    rw [List.mem_append, List.mem_append, h.mem_entered, or_right_comm]

/-- Keeping the rules of the last name on the stack keeps the state sound. -/
theorem leave {before : List TypeName} (h : Sound table r) (hstack : r.stack = before ++ [name])
    (q : PartialRules) : Sound table (r.leave name q) := by
  have hleft : (r.leave name q).stack = before := by
    rw [Resolver.leave, hstack, List.dropLast_concat]
  have hnodup : before.Nodup ∧ name ∉ before := by
    have hnodup := h.nodup_stack
    rw [hstack, List.nodup_append] at hnodup
    exact ⟨hnodup.1, fun hmem => hnodup.2.2 name hmem name List.mem_cons_self rfl⟩
  refine ⟨?_, ?_, ?_, h.nodup_entered, h.declared, fun m => ?_⟩
  · rw [hleft]
    exact hnodup.1
  · intro m hm
    rw [hleft] at hm
    have hne : m ≠ name := fun heq => hnodup.2 (heq ▸ hm)
    rw [get?_done_leave, if_neg hne]
    exact h.unresolved m (hstack ▸ List.mem_append_left _ hm)
  · rw [hleft]
    have hlinked := h.linked
    rw [hstack] at hlinked
    exact hlinked.left_of_append
  · -- the name goes over from the stack to the resolved ones
    show m ∈ r.entered ↔ _
    rw [h.mem_entered, hleft, hstack, SortedMap.contains, SortedMap.contains, get?_done_leave]
    by_cases hm : m = name <;> simp [hm]

end Sound

/-- What open calls have still to go through **continues** the names that they have taken up. -/
def Linked (table : RuleTable) : List Frame → Prop
  | [] => True
  | f :: outer =>
    Mixin.AllMentioned table (Continues table (takenUp (f :: outer))) f.mixins ∧ Linked table outer

/-- A moment is **in order**: its state is sound, the names on the stack are those that open calls
have taken up, and what these have still to go through continues them. -/
structure Moment.InOrder (table : RuleTable) (m : Moment) : Prop where
  sound : Sound table m.state
  stack_eq : m.state.stack = takenUp m.frames
  linked : Linked table m.frames

/-- The first moment is in order. -/
theorem Moment.inOrder_start (table : RuleTable) : (Moment.start table).InOrder table :=
  ⟨.start, rfl, fun _ _ _ => List.isChain_singleton _, trivial⟩

/-- **Each step keeps a moment in order.** -/
theorem Next.inOrder (h : Next table m m') (hm : m.InOrder table) : m'.InOrder table := by
  obtain ⟨hsound, hstack, hlinked⟩ := hm
  -- every step is made by the innermost call, and leaves all but that and the next one alone
  cases h with
  | undeclared hname =>
    exact ⟨hsound.report _, (stack_report _ _).trans hstack,
      (Mixin.allMentioned_named.1 hlinked.1).2, hlinked.2⟩
  | known hname hq =>
    exact ⟨hsound, hstack, (Mixin.allMentioned_named.1 hlinked.1).2, hlinked.2⟩
  | cycle hname hq hmem =>
    exact ⟨hsound.report _, (stack_report _ _).trans hstack,
      (Mixin.allMentioned_named.1 hlinked.1).2, hlinked.2⟩
  | @taken r call name d rest p outer hname hq hmem =>
    obtain ⟨hcontinues, hrest⟩ := Mixin.allMentioned_named.1 hlinked.1
    have hdeclared := contains_of_get? hname
    have hstack : r.stack = takenUp (⟨call, rest, p⟩ :: outer) := hstack
    have hcontinues : Continues table r.stack name := hstack ▸ hcontinues hdeclared
    -- what the declaration names continues the stack with the name on it
    have hinner : Mixin.AllMentioned table (Continues table (r.stack ++ [name])) d.mixins :=
      fun b hb hb' => hcontinues.mixes (allMentioned_mixes hname b hb hb')
    rw [hstack] at hinner
    exact ⟨hsound.enter hdeclared hq hmem hcontinues, congrArg (· ++ [name]) hstack, hinner, hrest,
      hlinked.2⟩
  | @left r call name d rest p inherited outer =>
    have hstack : r.stack = takenUp (⟨call, rest, p⟩ :: outer) ++ [name] := hstack
    have hleft : r.stack.dropLast = takenUp (⟨call, rest, p⟩ :: outer) := by
      rw [hstack, List.dropLast_concat]
    exact ⟨hsound.leave hstack _, hleft, hlinked.2⟩
  | @inline r call d rest p outer =>
    obtain ⟨hinner, hrest⟩ := Mixin.allMentioned_inline.1 hlinked.1
    refine ⟨hsound, hstack.trans (List.append_nil _).symm, ?_, hrest, hlinked.2⟩
    rw [takenUp, Call.names, List.append_nil]
    exact hinner
  | closed => exact ⟨hsound, hstack.trans (List.append_nil _), hlinked.2⟩
  | transform => exact ⟨hsound, hstack, Mixin.allMentioned_transform.1 hlinked.1, hlinked.2⟩

/-- **Every moment of the resolution of a table is in order.** -/
theorem Reached.inOrder (h : Reached table m) : m.InOrder table := by
  induction h with
  | refl => exact Moment.inOrder_start table
  | tail _ hnext ih => exact hnext.inOrder ih

end Resolver

open Resolver

/-- **Every run is a way from one moment to another**, whatever calls are open around it. -/
theorem Runs.leads {table : RuleTable} {owner : TypeName} {mixins : List Mixin}
    {p p' : PartialRules} {r r' : Resolver} (h : Runs table owner mixins p r p' r') (call : Call)
    (hcall : call.owner = owner) (outer : List Frame) :
    ReflTransGen (Next table) ⟨r, ⟨call, mixins, p⟩ :: outer⟩ ⟨r', ⟨call, [], p'⟩ :: outer⟩ := by
  induction h generalizing call outer with
  | nil => exact .refl
  | undeclared hname hrest ih =>
    subst hcall
    exact .head (.undeclared hname) (ih call rfl outer)
  | known hname hq hrest ih => exact .head (.known hname hq) (ih call hcall outer)
  | cycle hname hq hstack hrest ih => exact .head (.cycle hname hq hstack) (ih call hcall outer)
  | @taken owner name d rest p p' inherited r r₁ r' hname hq hstack hd hrest ihd ih =>
    have hinner := ihd (.named name d) rfl (⟨call, rest, p⟩ :: outer)
    exact .head (.taken hname hq hstack) (hinner.trans (.head .left (ih call hcall outer)))
  | @inline owner d rest p p' inherited r r₁ r' hd hrest ihd ih =>
    subst hcall
    have hinner := ihd (.inline call.owner d) rfl (⟨call, rest, p⟩ :: outer)
    exact .head .inline (hinner.trans (.head .closed (ih call rfl outer)))
  | transform hrest ih => exact .head .transform (ih call hcall outer)

/-- **The resolution of a table is in order until its end.** At every moment the names on the stack
are different, declared and not resolved yet, each of them mixes in the next, and they are those
whose declarations are being gone through; so no more of these are open than there are declared
names. The resolution does not go on for ever, its last moment is that of the resolved table, and by
then each declared name, and no other, has been taken up exactly once. -/
theorem sound_until_end (table : RuleTable) :
    (∀ m, Reached table m →
      m.state.stack.Nodup ∧
      (∀ name ∈ m.state.stack, table.contains name = true ∧ m.state.done.get? name = none) ∧
      m.state.stack.IsChain (Mixes table) ∧
      m.state.stack = takenUp m.frames ∧
      (takenUp m.frames).length ≤ table.size) ∧
    Acc (fun m' m => Next table m m') (Moment.start table) ∧
    (∃ last, Reached table last ∧ (∀ m, ¬ Next table last m) ∧
      last.state = Resolver.run table) ∧
    (Resolver.run table).entered.Nodup ∧
    (∀ name, name ∈ (Resolver.run table).entered ↔ table.contains name = true) := by
  obtain ⟨p', hrun⟩ := Runs.run table Call.table.owner
  have hend : Reached table ⟨Resolver.run table, [⟨.table, [], p'⟩]⟩ := hrun.leads .table rfl []
  have hlast : ∀ m, ¬ Next table ⟨Resolver.run table, [⟨.table, [], p'⟩]⟩ m := nofun
  have hsound := hend.inOrder.sound
  refine ⟨fun m hm => ?_, acc_of_ends hend hlast, ⟨_, hend, hlast, rfl⟩, hsound.nodup_entered,
    fun name => ⟨hsound.declared name, fun hname => ?_⟩⟩
  · have horder := hm.inOrder
    have hdeclared : ∀ name ∈ m.state.stack, table.contains name = true := fun name hname =>
      horder.sound.declared name ((horder.sound.mem_entered name).2 (.inl hname))
    refine ⟨horder.sound.nodup_stack, fun name hname => ⟨hdeclared name hname,
      horder.sound.unresolved name hname⟩, horder.sound.linked, horder.stack_eq, ?_⟩
    rw [← horder.stack_eq]
    exact Runs.length_le_size horder.sound.nodup_stack hdeclared
  · -- all declared names are resolved by the end, so each has been taken up
    obtain ⟨q, hq⟩ := exists_done_run hname
    exact (hsound.mem_entered name).2 (.inr (Option.isSome_iff_exists.2 ⟨q, hq⟩))

/-- Two names on a circle, of which the first names the second in a declaration written in place.
There is a moment at which both are on the stack, and no deeper one; in the end each has been taken
up once. -/
theorem sound_until_end_on_circle : ∃ (table : RuleTable) (m : Moment),
    Mixes table ⟨"A"⟩ ⟨"B"⟩ ∧ Mixes table ⟨"B"⟩ ⟨"A"⟩ ∧ Reached table m ∧
      m.state.stack = [⟨"A"⟩, ⟨"B"⟩] ∧ m.state.stack.IsChain (Mixes table) ∧
      (takenUp m.frames).length ≤ table.size ∧ table.size = 2 ∧
      (Resolver.run table).entered.Nodup ∧ ⟨"B"⟩ ∈ (Resolver.run table).entered := by
  let inner : Declaration := .mk [.named ⟨"B"⟩] ∅ none
  let a : Declaration := .mk [.inline inner] ∅ none
  let b : Declaration := .mk [.named ⟨"A"⟩] ∅ none
  let table : RuleTable := .ofList [(⟨"A"⟩, a), (⟨"B"⟩, b)]
  have ha : table.get? ⟨"A"⟩ = some a := by simp [table, SortedMap.ofList, SortedMap.insertAll]
  have hb : table.get? ⟨"B"⟩ = some b := by simp [table, SortedMap.ofList, SortedMap.insertAll]
  have hkeys : table.keys = [⟨"A"⟩, ⟨"B"⟩] := by decide +kernel
  let names : Frame := ⟨.table, [.named ⟨"A"⟩, .named ⟨"B"⟩], .empty⟩
  have hstart : Moment.start table = ⟨{}, [names]⟩ := by
    rw [Moment.start, hkeys]
    rfl
  -- the names of the table are resolved in turn; in the declaration of the first there is another
  -- one written in place, and the name in it is taken up
  have hreached : ReflTransGen (Next table) ⟨{}, [names]⟩ _ :=
    .head (.taken ha rfl List.not_mem_nil) (.head .inline (.single (.taken hb rfl (by decide))))
  rw [← hstart] at hreached
  obtain ⟨hmoments, -, -, hnodup, hentered⟩ := sound_until_end table
  obtain ⟨-, -, hlinked, -, hdepth⟩ := hmoments _ hreached
  exact ⟨table, _, ⟨a, ha, by decide, contains_of_get? hb⟩, ⟨b, hb, by decide, contains_of_get? ha⟩,
    hreached, rfl, hlinked, hdepth, by decide +kernel, hnodup,
    (hentered _).2 (contains_of_get? hb)⟩

end ObjectMapping
