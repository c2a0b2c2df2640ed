import Mathlib.Logic.Relation
import ObjectMapping.Proofs.Filter.Stages

/-! # Progress of the readers

Every reader that succeeds goes on by one token at least and leaves as many parentheses open as it
found; and a reader that fails reports the place of a token. This is said by `Cursor.Advances`,
which composes along the readers. So the calls that readers make of one another (`Cursor.Calls`) go
on through the tokens or down through the levels of the grammar, and neither of the bounds with
which they are written is ever met.

* **`Cursor.advances_filter`** — the reader of filters advances.
* **`Cursor.wellFounded_calls`** — no calls stand inside one another without end.
* **`Cursor.readers_progress`** — how the readers go on, and how deep they are nested. -/

namespace ObjectMapping

open Grammar Relation

namespace Cursor

/-! ### Going on -/

/-- A place is **behind** another one by a number of tokens at least, with as many parentheses
open. -/
structure Behind (n : Nat) (c c' : Cursor) : Prop where
  /-- The tokens between the places. -/
  exists_passed : ∃ passed : List Token, c.rest = passed ++ c'.rest ∧ n ≤ passed.length
  /-- The last token of the text. -/
  lastOffset : c'.lastOffset = c.lastOffset
  /-- The number of parentheses. -/
  opened : c'.opened = c.opened

/-- A fault is **located** from a place on: it is reported at a token there, or at the last one of
the text. -/
def Located (c : Cursor) (e : FilterError) : Prop :=
  (∃ t ∈ c.rest, e.position = t.offset) ∨ e.position = c.lastOffset

/-- What comes of a reading **advances** by a number of tokens at least: it goes on to a place
behind them, or reports a fault at a token. -/
inductive Advances {α : Type} (n : Nat) (c : Cursor) : Except FilterError (α × Cursor) → Prop where
  /-- The reading succeeds. -/
  | ok {value : α} {c' : Cursor} (h : Behind n c c') : Advances n c (.ok (value, c'))
  /-- The reading fails. -/
  | error {e : FilterError} (h : Located c e) : Advances n c (.error e)

variable {m n : Nat} {c c' c'' : Cursor} {l : Lexeme} {e : FilterError} {fault : FilterFault}

namespace Behind

/-- A place is behind itself by nothing. -/
theorem refl : Behind 0 c c := ⟨⟨[], rfl, Nat.le_refl 0⟩, rfl, rfl⟩

/-- Places one behind the other. -/
theorem trans (h : Behind m c c') (h' : Behind n c' c'') : Behind (m + n) c c'' := by
  obtain ⟨passed, hrest, hm⟩ := h.exists_passed
  obtain ⟨passed', hrest', hn⟩ := h'.exists_passed
  refine ⟨⟨passed ++ passed', ?_, ?_⟩, h'.lastOffset.trans h.lastOffset, h'.opened.trans h.opened⟩
  · rw [hrest, hrest', List.append_assoc]
  · rw [List.length_append]
    omega

/-- What is behind by more is behind by less. -/
theorem weaken (h : Behind n c c') (hmn : m ≤ n) : Behind m c c' := by
  obtain ⟨passed, hrest, hn⟩ := h.exists_passed
  exact ⟨⟨passed, hrest, Nat.le_trans hmn hn⟩, h.lastOffset, h.opened⟩

/-- The next place is behind by the token here. -/
theorem next (hl : c.lexeme? = some l) : Behind 1 c c.next := by
  obtain ⟨t, ht, -⟩ := Option.map_eq_some_iff.1 hl
  obtain ⟨rest, hrest⟩ := List.head?_eq_some_iff.1 ht
  refine ⟨⟨[t], ?_, Nat.le_refl 1⟩, rfl, rfl⟩
  rw [Cursor.next, hrest]
  rfl

/-- There are fewer tokens from a place behind on. -/
theorem length_le (h : Behind n c c') : c'.rest.length + n ≤ c.rest.length := by
  obtain ⟨passed, hrest, hn⟩ := h.exists_passed
  rw [hrest, List.length_append]
  omega

end Behind

namespace Located

/-- A fault is located from each place before. -/
theorem of_behind (h : Behind n c c') (he : Located c' e) : Located c e := by
  obtain ⟨passed, hrest, -⟩ := h.exists_passed
  obtain ⟨t, ht, hposition⟩ | hposition := he
  · exact .inl ⟨t, hrest ▸ List.mem_append_right passed ht, hposition⟩
  · exact .inr (hposition.trans h.lastOffset)

/-- A fault at a place is located from there on. -/
theorem here : Located c ⟨c.offset, fault⟩ := by
  cases hrest : c.rest with
  | nil => exact .inr (by rw [offset, hrest]; rfl)
  | cons t rest =>
    refine .inl ⟨t, hrest ▸ List.mem_cons_self, ?_⟩
    rw [offset, hrest]
    rfl

/-- A fault at the next place is located, whether or not there is a token to be passed. -/
theorem next : Located c ⟨c.next.offset, fault⟩ := by
  have hnext : Located c.next ⟨c.next.offset, fault⟩ := here
  obtain ⟨t, ht, hposition⟩ | hposition := hnext
  · exact .inl ⟨t, List.mem_of_mem_tail ht, hposition⟩
  · exact .inr hposition

end Located

namespace Advances

variable {α β : Type} {result : Except FilterError (α × Cursor)}

/-- Nothing is read. -/
theorem pure {value : α} : Advances 0 c (.ok (value, c)) := .ok .refl

/-- Whatever advances advances by nothing. -/
theorem zero (h : Advances n c result) : Advances 0 c result := by
  cases h with
  | ok hbehind => exact .ok (hbehind.weaken (Nat.zero_le n))
  | error he => exact .error he

/-- A reading from a place behind. -/
theorem of_behind (hbehind : Behind n c c') (h : Advances 0 c' result) : Advances n c result := by
  cases h with
  | ok h => exact .ok (hbehind.trans h)
  | error he => exact .error (he.of_behind hbehind)

/-- Readings one after the other, the first one from a place from which faults are located. -/
theorem bind_located {f : α × Cursor → Except FilterError (β × Cursor)} (h : Advances m c' result)
    (hlocated : ∀ e, Located c' e → Located c e)
    (hf : ∀ value c'', Behind m c' c'' → Advances n c (f (value, c''))) :
    Advances n c (result >>= f) := by
  cases h with
  | ok hbehind => exact hf _ _ hbehind
  | error he => exact .error (hlocated _ he)

/-- **Readings one after the other** advance by what the first one does. -/
theorem bind {f : α × Cursor → Except FilterError (β × Cursor)} (h : Advances n c result)
    (hf : ∀ value c', Advances 0 c' (f (value, c'))) : Advances n c (result >>= f) :=
  h.bind_located (fun _ he => he) fun value c' hbehind => .of_behind hbehind (hf value c')

/-- Where a reading that succeeds goes on to. -/
theorem behind {value : α} (h : Advances n c result) (hok : result = .ok (value, c')) :
    Behind n c c' := by
  subst hok
  cases h with | ok hbehind => exact hbehind

end Advances

/-! ### Readers of conditions -/

/-- Where there is a text there is a token. -/
theorem behind_next_of_text? {s : String} (h : c.text? = some s) : Behind 1 c c.next := by
  obtain ⟨t, ht, -⟩ := exists_term_of_text? h
  exact .next ht

/-- The name of a field is one token. -/
theorem advances_field : Advances 1 c c.field := by
  unfold field
  split
  · next s hs => exact .ok (behind_next_of_text? hs)
  · exact .error .next

/-- A comparison is one token. -/
theorem advances_comparison : Advances 1 c c.comparison := by
  unfold comparison
  split
  · next sign hsign => exact .ok (.next hsign)
  · exact .error .next

/-- A literal that is no list is one token. -/
theorem advances_scalar : Advances 1 c c.scalar := by
  unfold scalar
  split
  · next s hs => exact .ok (.next hs)
  · next s hs => exact .ok (.next hs)
  · exact .error .next

/-- An item of a list and the lexeme behind it are two tokens. -/
theorem behind_item {s : String} (hs : c.text? = some s) (hl : c.next.lexeme? = some l) :
    Behind 2 c c.next.next := (behind_next_of_text? hs).trans (.next hl)

/-- **The items of a list** are two tokens at least. -/
theorem advances_items : Advances 2 c c.items := by
  -- the induction follows the reader, and each round goes on from behind an item and a comma
  fun_induction items c with
  | case1 c hs => exact .error .next
  | case2 c s hs hcomma ih =>
    exact .of_behind (behind_item hs hcomma) (ih.zero.bind fun _ _ => .pure)
  | case3 c s hs hclosing => exact .ok (behind_item hs hclosing)
  | case4 c s hs => exact .error (Located.next.of_behind (behind_next_of_text? hs))

/-- **A list** is one token at least. -/
theorem advances_list : Advances 1 c c.list := by
  unfold list
  split
  · next hopening =>
    refine .of_behind (.next hopening) ?_
    split
    · next hclosing => exact .zero (.ok (.next hclosing))
    · exact advances_items.zero.bind fun _ _ => .pure
  · exact .error .next

/-- A literal is one token at least. -/
theorem advances_literal (sign : Comparison) : Advances 1 c (c.literal sign) := by
  unfold literal
  split
  · exact advances_list
  · exact advances_scalar

/-- **A condition** is one token at least. -/
theorem advances_condition : Advances 1 c c.condition := by
  refine advances_field.bind fun _ c => ?_
  refine advances_comparison.zero.bind fun sign c => ?_
  exact (advances_literal sign).zero.bind fun _ _ => .pure

/-! ### Readers of filters -/

variable {connective : Connective} {inner reader : FilterReader}

/-- A filter in parentheses advances, if what stands in them does. -/
theorem advances_group (hinner : ∀ c, Advances 1 c (inner c))
    (hopening : c.lexeme? = some .opening) :
    Advances 1 c (inner c.entered >>= fun (f, c') =>
      let c'' : Cursor := { c' with opened := c'.opened - 1 }
      match c''.lexeme? with
      | some .closing => Except.ok (f, c''.next)
      | _ => c''.next.fail .noClosing) := by
  -- with the parenthesis behind it closed again, a place inside is behind the opening one
  have hclosed : ∀ {n c'}, Behind n c.entered c' →
      Behind 1 c { c' with opened := c'.opened - 1 } := by
    intro n c' h
    have hinside : Behind n c.next { c' with opened := c'.opened - 1 } :=
      ⟨h.exists_passed, h.lastOffset, by rw [h.opened]; rfl⟩
    exact ((Behind.next hopening).trans hinside).weaken (Nat.le_add_right 1 n)
  refine (hinner c.entered).bind_located (fun _ he => Located.of_behind (Behind.next hopening) he)
    fun f c' hinside => .of_behind (hclosed hinside) ?_
  show Advances 0 { c' with opened := c'.opened - 1 } (match c'.lexeme? with
    | some .closing => .ok (f, { c'.next with opened := c'.opened - 1 })
    | _ => Cursor.fail { c'.next with opened := c'.opened - 1 } .noClosing)
  split
  · next hclosing => exact .zero (.ok (.next hclosing))
  · exact .error .next

/-- Operands advance, if what stands in parentheses does. -/
theorem advances_operand (hinner : ∀ c, Advances 1 c (inner c)) :
    Advances 1 c (operand inner c) := by
  unfold operand
  split
  · next hopening =>
    split
    · exact .error .here
    · exact advances_group hinner hopening
  · exact advances_condition

/-- At a connective there is a token. -/
theorem behind_next_of_isAt (h : c.isAt connective = true) : Behind 1 c c.next := by
  obtain ⟨keyword, hkeyword⟩ := exists_keyword_of_isAt h
  exact .next hkeyword

/-- The rest of a chain advances, by nothing if it is empty. -/
theorem advances_chain (hreader : ∀ c, Advances 1 c (reader c)) (rounds : Nat) (left : Filter) :
    Advances 0 c (chain connective reader rounds left c) := by
  induction rounds generalizing left c with
  | zero => exact .pure
  | succ rounds ih =>
    rw [chain]
    split
    · next hat =>
      have hnext := behind_next_of_isAt hat
      refine (hreader c.next).bind_located (fun _ he => he.of_behind hnext)
        fun right after hafter => ?_
      -- a node that is too deep is reported at the connective
      show Advances 0 c (c.node left connective right >>= fun joined =>
        chain connective reader rounds joined after)
      unfold node
      split
      · exact .error .here
      · exact .zero (.of_behind (hnext.trans hafter) (ih _))
    · exact .pure

/-- **Chains advance**, if the phrases that they join do. -/
theorem advances_operands (hreader : ∀ c, Advances 1 c (reader c)) :
    Advances 1 c (operands connective reader c) :=
  (hreader c).bind fun left after => advances_chain hreader after.rest.length left

/-- **The reader of filters advances.** -/
theorem advances_filter (room : Nat) : ∀ c, Advances 1 c (filter room c) := by
  induction room with
  | zero => exact fun c => .error .here
  | succ room ih =>
    exact fun c => advances_operands fun _ => advances_operands fun _ => advances_operand ih

/-! ### Rounds of a chain -/

/-- **A round** of reading a chain: behind what has been joined so far there are the connective and
one more phrase, which is joined to it. -/
inductive Round (connective : Connective) (reader : FilterReader) :
    Filter × Cursor → Filter × Cursor → Prop where
  /-- The connective, the phrase and the node. -/
  | intro {left right joined : Filter} {c after : Cursor} (hat : c.isAt connective = true)
      (hright : reader c.next = .ok (right, after))
      (hjoined : c.node left connective right = .ok joined) :
      Round connective reader (left, c) (joined, after)

/-- A chain that begins at a place **comes to** another one: the first phrase and rounds lead
there. -/
def ComesTo (connective : Connective) (reader : FilterReader) (c c' : Cursor) : Prop :=
  ∃ first left, reader c = .ok first ∧
    ReflTransGen (Round connective reader) first (left, c')

/-- **A round goes on by two tokens at least.** -/
theorem Round.behind (hreader : ∀ c, Advances 1 c (reader c)) {s s' : Filter × Cursor}
    (h : Round connective reader s s') : Behind 2 s.2 s'.2 := by
  obtain ⟨hat, hright, -⟩ := h
  exact (behind_next_of_isAt hat).trans ((hreader _).behind hright)

/-- Rounds one after the other go on. -/
theorem behind_of_rounds (hreader : ∀ c, Advances 1 c (reader c)) {s s' : Filter × Cursor}
    (h : ReflTransGen (Round connective reader) s s') : Behind 0 s.2 s'.2 := by
  induction h with
  | refl => exact .refl
  | tail _ hround ih => exact (ih.trans (hround.behind hreader)).weaken (Nat.zero_le _)

/-- A chain comes to places behind. -/
theorem ComesTo.behind (hreader : ∀ c, Advances 1 c (reader c))
    (h : ComesTo connective reader c c') : Behind 1 c c' := by
  obtain ⟨first, left, hfirst, hrounds⟩ := h
  exact ((hreader c).behind hfirst).trans (behind_of_rounds hreader hrounds)

/-- What a chain is read as depends on the reader only where the chain has phrases. -/
theorem chain_congr {reader' : FilterReader} {rounds : Nat} {left : Filter}
    (h : ∀ left' c', ReflTransGen (Round connective reader) (left, c) (left', c') →
      c'.isAt connective = true → reader c'.next = reader' c'.next) :
    chain connective reader rounds left c = chain connective reader' rounds left c := by
  induction rounds generalizing left c with
  | zero => rfl
  | succ rounds ih =>
    rw [chain, chain]
    split
    · next hat =>
      rw [← h left c .refl hat]
      refine bind_congr_of_ok fun r hright => ?_
      obtain ⟨right, after⟩ := r
      refine bind_congr_of_ok fun joined hjoined => ?_
      exact ih fun left' c' hrounds => h left' c' (.head ⟨hat, hright, hjoined⟩ hrounds)
    · rfl

/-- What a chain is read as from its first phrase on. -/
theorem operands_congr {reader' : FilterReader} (hfirst : reader c = reader' c)
    (hfurther : ∀ c', ComesTo connective reader c c' → c'.isAt connective = true →
      reader c'.next = reader' c'.next) :
    operands connective reader c = operands connective reader' c := by
  unfold operands
  rw [← hfirst]
  refine bind_congr_of_ok fun first hresult => ?_
  exact chain_congr fun left c' hrounds => hfurther c' ⟨first, left, hresult, hrounds⟩

/-- What an operand is read as depends on the reader inside only if there is a parenthesis that may
be opened. -/
theorem operand_congr {inner' : FilterReader}
    (h : c.lexeme? = some .opening → c.opened ≠ Filter.depthLimit →
      inner c.entered = inner' c.entered) : operand inner c = operand inner' c := by
  unfold operand
  split
  · next hopening =>
    split
    · rfl
    · next hopened =>
      show (inner c.entered >>= _) = (inner' c.entered >>= _)
      rw [h hopening hopened]
  · rfl

/-! ### The bounds are not met -/

/-- **More rounds make no difference**: there is a round for each token that is left. -/
theorem chain_rounds (hreader : ∀ c, Advances 1 c (reader c)) {rounds rounds' : Nat}
    {left : Filter} (h : c.rest.length ≤ rounds) (h' : c.rest.length ≤ rounds') :
    chain connective reader rounds left c = chain connective reader rounds' left c := by
  induction rounds generalizing rounds' left c with
  | zero =>
    have hat : c.isAt connective = false := by
      refine Bool.eq_false_iff.2 fun hat => ?_
      obtain ⟨n, hn⟩ := rest_length_of_isAt hat
      omega
    rw [chain_eq_ok hat, chain_eq_ok hat]
  | succ rounds ih =>
    cases hat : c.isAt connective with
    | false => rw [chain_eq_ok hat, chain_eq_ok hat]
    | true =>
      -- there is a token, so there is a round on both sides, and fewer tokens behind it
      obtain ⟨n, hn⟩ := rest_length_of_isAt hat
      obtain ⟨rounds', rfl⟩ : ∃ k, rounds' = k + 1 := ⟨rounds' - 1, by omega⟩
      rw [chain, chain, if_pos hat, if_pos hat]
      refine bind_congr_of_ok fun r hright => ?_
      obtain ⟨right, after⟩ := r
      refine bind_congr_of_ok fun joined _ => ?_
      have hafter := ((behind_next_of_isAt hat).trans ((hreader _).behind hright)).length_le
      exact ih (by omega) (by omega)

/-- **More room makes no difference**: parentheses are opened only up to the limit. -/
theorem filter_room {room room' : Nat} (hopened : c.opened ≤ Filter.depthLimit)
    (h : Filter.depthLimit < room + c.opened) (h' : Filter.depthLimit < room' + c.opened) :
    filter room c = filter room' c := by
  induction room generalizing room' c with
  | zero => omega
  | succ room ih =>
    cases room' with
    | zero => omega
    | succ room' =>
      have hoperand : ∀ c', c'.opened = c.opened →
          operand (filter room) c' = operand (filter room') c' := by
        intro c' hc'
        refine operand_congr fun _ hlimit => ?_
        rw [hc'] at hlimit
        exact ih (by rw [opened_entered]; omega) (by rw [opened_entered]; omega)
          (by rw [opened_entered]; omega)
      have hoperands : ∀ c', c'.opened = c.opened →
          operands .and (operand (filter room)) c' = operands .and (operand (filter room')) c' := by
        intro c' hc'
        refine operands_congr (hoperand c' hc') fun c'' hcomes _ => hoperand _ ?_
        exact ((hcomes.behind fun _ => advances_operand (advances_filter room)).opened).trans hc'
      refine operands_congr (hoperands c rfl) fun c' hcomes _ => hoperands _ ?_
      exact (hcomes.behind fun _ => advances_operands fun _ =>
        advances_operand (advances_filter room)).opened

/-- **The reader of the phrases of a level**, with room for as many parentheses as may be open. -/
def phrase (level : Level) : FilterReader := readerAt (filter (Filter.depthLimit + 1)) level

/-- Phrases advance. -/
theorem advances_phrase (level : Level) : ∀ c, Advances 1 c (phrase level c) := by
  have hoperand : ∀ c, Advances 1 c (phrase .operand c) := fun c =>
    advances_operand (advances_filter _)
  obtain _ | connective := level
  · exact hoperand
  · cases connective with
    | and => exact fun c => advances_operands hoperand
    | or => exact fun c => advances_operands fun c => advances_operands hoperand

/-- A chain is read from the phrases that it joins. -/
theorem phrase_chain : phrase (.chain connective) =
    operands connective (phrase (.joinedBy connective)) := readerAt_chain

/-- Readers of the levels **recur** without a bound when an operand is read with the reader of
disjunctions, and a chain with the reader of the phrases that it joins, wherever no more parentheses
are open than may be. -/
structure Recurs (read : Level → FilterReader) : Prop where
  operand : ∀ c : Cursor, c.opened ≤ Filter.depthLimit →
    read .operand c = operand (read (.chain .or)) c
  chain : ∀ (connective : Connective) (c : Cursor), c.opened ≤ Filter.depthLimit →
    read (.chain connective) c = operands connective (read (.joinedBy connective)) c

/-- Readers with enough room recur. -/
theorem recurs_readerAt {room : Nat} (h : Filter.depthLimit < room) :
    Recurs (readerAt (filter room)) where
  operand c hopened := operand_congr fun _ hlimit => by
    have hentered : c.entered.opened ≤ Filter.depthLimit := by
      rw [opened_entered]
      omega
    rw [← filter_succ]
    exact filter_room hentered (by omega) (by omega)
  chain connective c _ := by rw [readerAt_chain]

/-- The readers of phrases recur. -/
theorem recurs_phrase : Recurs phrase := recurs_readerAt (Nat.lt_succ_self _)

/-- With enough room the reader of filters is that of disjunctions. -/
theorem filter_eq_phrase {room : Nat} (hopened : c.opened ≤ Filter.depthLimit)
    (h : Filter.depthLimit < room + c.opened) : filter room c = phrase (.chain .or) c := by
  show filter room c = filter (Filter.depthLimit + 1 + 1) c
  exact filter_room hopened h (by omega)

/-! ### Calls -/

/-- A **call** of a reader at a place. -/
inductive Call where
  /-- A phrase of a level is read. -/
  | phrase (level : Level) (c : Cursor)
  /-- A condition is read. -/
  | condition (c : Cursor)
  /-- A list is read. -/
  | list (c : Cursor)
  /-- The items of a list are read, from one on. -/
  | items (c : Cursor)

namespace Call

/-- The place of a call. -/
def place : Call → Cursor
  | .phrase _ c | .condition c | .list c | .items c => c

/-- The rank of a call: calls at one place are made of one another in the order of their ranks. -/
def rank : Call → Nat
  | .phrase level _ => level.rank + 1
  | _ => 0

/-- Whether a call is for a disjunction, which is what stands in parentheses. -/
def isDisjunction : Call → Bool
  | .phrase (.chain .or) _ => true
  | _ => false

end Call

/-- **The calls that a call makes.** -/
inductive Calls : Call → Call → Prop where
  /-- The first phrase of a chain. -/
  | first {connective : Connective} {c : Cursor} :
      Calls (.phrase (.chain connective) c) (.phrase (.joinedBy connective) c)
  /-- A further phrase of a chain, behind its connective. -/
  | further {connective : Connective} {c c' : Cursor}
      (hcomes : ComesTo connective (phrase (.joinedBy connective)) c c')
      (hat : c'.isAt connective = true) :
      Calls (.phrase (.chain connective) c) (.phrase (.joinedBy connective) c'.next)
  /-- A disjunction in parentheses. -/
  | group {c : Cursor} (hopening : c.lexeme? = some .opening)
      (hopened : c.opened ≠ Filter.depthLimit) :
      Calls (.phrase .operand c) (.phrase (.chain .or) c.entered)
  /-- A condition, where there is no parenthesis. -/
  | condition {c : Cursor} (hopening : c.lexeme? ≠ some .opening) :
      Calls (.phrase .operand c) (.condition c)
  /-- The list of a condition. -/
  | list {c c₁ c₂ : Cursor} {field : String} (hfield : c.field = .ok (field, c₁))
      (hsign : c₁.comparison = .ok (.oneOf, c₂)) : Calls (.condition c) (.list c₂)
  /-- The items of a list that is not empty. -/
  | items {c : Cursor} (hopening : c.lexeme? = some .opening)
      (hclosing : c.next.lexeme? ≠ some .closing) : Calls (.list c) (.items c.next)
  /-- The items behind an item and a comma. -/
  | item {c : Cursor} {text : String} (htext : c.text? = some text)
      (hcomma : c.next.lexeme? = some .comma) : Calls (.items c) (.items c.next.next)

variable {call call' : Call}

/-- **A call that is made stands behind**, or at the same place and lower in rank. -/
theorem Calls.lower (h : Calls call call') :
    Prod.Lex (· < ·) (· < ·) (call'.place.rest.length, call'.rank)
      (call.place.rest.length, call.rank) := by
  have hlength : ∀ {n : Nat} {c c' : Cursor}, Behind (n + 1) c c' →
      c'.rest.length < c.rest.length := by
    intro n c c' h
    have := h.length_le
    omega
  cases h with
  | first => exact .right _ (Nat.succ_lt_succ (Level.rank_joinedBy _))
  | further hcomes hat =>
    exact .left _ _ (hlength ((hcomes.behind (advances_phrase _)).trans (behind_next_of_isAt hat)))
  | @group c hopening =>
    -- to enter a parenthesis is to pass it, so the same tokens are left
    have hnext : c.next.rest.length < c.rest.length := hlength (.next hopening)
    exact .left _ _ hnext
  | condition => exact .right _ (Nat.succ_pos _)
  | list hfield hsign =>
    have hbehind := (advances_field.behind hfield).trans (advances_comparison.behind hsign)
    exact .left _ _ (hlength hbehind)
  | items hopening => exact .left _ _ (hlength (Behind.next hopening))
  | item htext hcomma => exact .left _ _ (hlength (behind_item htext hcomma))

/-- **No calls stand inside one another without end.** -/
theorem wellFounded_calls : WellFounded fun call' call => Calls call call' :=
  Subrelation.wf (fun h => h.lower)
    (InvImage.wf (fun call : Call => (call.place.rest.length, call.rank))
      (Prod.lex Nat.lt_wfRel Nat.lt_wfRel).wf)

/-- **Each call for a disjunction opens a parenthesis**, and no other call does. -/
theorem Calls.opened_eq (h : Calls call call') :
    call'.place.opened = call.place.opened + if call'.isDisjunction then 1 else 0 := by
  have hsame : ∀ {connective : Connective} {c : Cursor},
      (Call.phrase (.joinedBy connective) c).isDisjunction = false := by
    intro connective c
    cases connective <;> rfl
  cases h with
  | first => rw [hsame]; rfl
  | further hcomes hat =>
    rw [hsame]
    exact ((hcomes.behind (advances_phrase _)).trans (behind_next_of_isAt hat)).opened
  | group => rfl
  | condition => rfl
  | list hfield hsign =>
    exact ((advances_field.behind hfield).trans (advances_comparison.behind hsign)).opened
  | items => rfl
  | item => rfl

/-- No call opens more parentheses than may be open. -/
theorem Calls.opened_le (h : Calls call call') (hopened : call.place.opened ≤ Filter.depthLimit) :
    call'.place.opened ≤ Filter.depthLimit := by
  have heq := h.opened_eq
  cases h with
  | group hopening hlimit => exact Nat.lt_of_le_of_ne hopened hlimit
  | @first connective c => cases connective <;> exact hopened
  | @further connective c c' hcomes hat =>
    cases connective <;> exact heq ▸ hopened
  | condition => exact hopened
  | list => exact heq ▸ hopened
  | items => exact hopened
  | item => exact hopened

/-- **Calls inside one another are for as many disjunctions at most as parentheses may still be
opened.** -/
theorem countP_isDisjunction_le {path : List Call} (h : (call :: path).IsChain Calls)
    (hopened : call.place.opened ≤ Filter.depthLimit) :
    path.countP Call.isDisjunction + call.place.opened ≤ Filter.depthLimit := by
  induction path generalizing call with
  | nil => simpa using hopened
  | cons call' path ih =>
    obtain ⟨hcalls, hpath⟩ := List.isChain_cons_cons.1 h
    have hrest := ih hpath (hcalls.opened_le hopened)
    rw [hcalls.opened_eq] at hrest
    rw [List.countP_cons]
    omega

/-- **There is one way only to read without a bound.** -/
theorem Recurs.eq_phrase {read : Level → FilterReader} (h : Recurs read) (level : Level)
    (hopened : c.opened ≤ Filter.depthLimit) : read level c = phrase level c := by
  -- the induction is on the calls, which are the same for both readers as far as these agree
  have hagree : ∀ call : Call, ∀ level c, call = .phrase level c →
      c.opened ≤ Filter.depthLimit → read level c = phrase level c := by
    intro call
    induction call using wellFounded_calls.induction with
    | _ call ih =>
      rintro level c rfl hopened
      cases level with
      | operand =>
        rw [h.operand c hopened, recurs_phrase.operand c hopened]
        refine (operand_congr fun hopening hlimit => ?_).symm
        have hcall : Calls (.phrase .operand c) (.phrase (.chain .or) c.entered) :=
          .group hopening hlimit
        exact (ih _ hcall _ _ rfl (hcall.opened_le hopened)).symm
      | chain connective =>
        rw [h.chain connective c hopened, phrase_chain]
        refine (operands_congr ?_ fun c' hcomes hat => ?_).symm
        · exact (ih _ .first _ _ rfl hopened).symm
        · have hcall := Calls.further hcomes hat
          exact (ih _ hcall _ _ rfl (hcall.opened_le hopened)).symm
  exact hagree _ level c rfl hopened

/-! ### Positions -/

/-- The **place** at a position among the tokens of a text, with a number of parentheses open. -/
def place (tokens : List Token) (position opened : Nat) : Cursor :=
  ⟨tokens.drop position, (start tokens).lastOffset, opened⟩

/-- What comes of a reading at a position **goes on** if it is a fault, or else leads to a further
position up to the end of the tokens, with as many parentheses open. -/
def GoesOn {α : Type} (tokens : List Token) (position opened : Nat)
    (result : Except FilterError (α × Cursor)) : Prop :=
  ∀ value c', result = .ok (value, c') →
    ∃ position', position < position' ∧ position' ≤ tokens.length ∧
      c' = place tokens position' opened

/-- Whatever advances by a token goes on. -/
theorem Advances.goesOn {α : Type} {tokens : List Token} {position opened : Nat}
    {result : Except FilterError (α × Cursor)}
    (h : Advances 1 (place tokens position opened) result) :
    GoesOn tokens position opened result := by
  intro value c' hok
  obtain ⟨⟨passed, hrest, hpassed⟩, hlast, hopened⟩ := h.behind hok
  have hdrop : tokens.drop position = passed ++ c'.rest := hrest
  have hlength := congrArg List.length hdrop
  rw [List.length_drop, List.length_append] at hlength
  refine ⟨position + passed.length, by omega, by omega, ?_⟩
  have hrest' : tokens.drop (position + passed.length) = c'.rest := by
    rw [← List.drop_drop, hdrop, List.drop_left]
  calc c' = ⟨c'.rest, c'.lastOffset, c'.opened⟩ := rfl
    _ = place tokens (position + passed.length) opened := by
      rw [← hrest', hlast, hopened]
      rfl

/-- **Progress of the readers.** At every position among any tokens, each reader of phrases, that of
conditions and that of lists go on when they succeed, with the parentheses open as they found them.
No call inside another one has more than 64 parentheses open; each further round of a chain and of a
list goes on by two tokens at least. So calls end, whatever the bounds with which the readers are
written: the readers recur, there are no others that do, and rounds beyond the tokens that are left
make no difference. The reader of a whole text is among them, and at most 65 calls for a disjunction
stand inside one another in it. -/
theorem readers_progress (tokens : List Token) :
    (∀ position opened,
      (∀ level, GoesOn tokens position opened (phrase level (place tokens position opened))) ∧
      GoesOn tokens position opened (place tokens position opened).condition ∧
      GoesOn tokens position opened (place tokens position opened).list) ∧
    (∀ call call', call.place.opened ≤ 64 → ReflTransGen Calls call call' →
      call'.place.opened ≤ 64) ∧
    (∀ connective left joined c c',
      Round connective (phrase (.joinedBy connective)) (left, c) (joined, c') → Behind 2 c c') ∧
    (∀ c c', Calls (.items c) (.items c') → Behind 2 c c') ∧
    WellFounded (fun call' call => Calls call call') ∧
    Recurs phrase ∧
    (∀ read, Recurs read → ∀ level c, c.opened ≤ 64 → read level c = phrase level c) ∧
    (∀ connective level rounds left c, c.rest.length ≤ rounds →
      chain connective (phrase level) rounds left c =
        chain connective (phrase level) c.rest.length left c) ∧
    (start tokens).filter (Filter.depthLimit + 1) = phrase (.chain .or) (start tokens) ∧
    ∀ path, (Call.phrase (.chain .or) (start tokens) :: path).IsChain Calls →
      (Call.phrase (.chain .or) (start tokens) :: path).countP Call.isDisjunction ≤ 65 := by
  have hstart : (start tokens).opened ≤ Filter.depthLimit := Nat.zero_le _
  refine ⟨fun position opened => ⟨fun level => ?_, ?_, ?_⟩, fun call call' hopened hcalls => ?_,
    fun connective left joined c c' hround => ?_, fun c c' hcall => ?_, wellFounded_calls,
    recurs_phrase, fun read hread level c hopened => hread.eq_phrase level hopened,
    fun connective level rounds left c hrounds => ?_, ?_, fun path hpath => ?_⟩
  · exact (advances_phrase level _).goesOn
  · exact advances_condition.goesOn
  · exact advances_list.goesOn
  · induction hcalls with
    | refl => exact hopened
    | tail _ hcall ih => exact hcall.opened_le ih
  · exact hround.behind (advances_phrase _)
  · cases hcall with
    | item htext hcomma => exact behind_item htext hcomma
  · exact chain_rounds (advances_phrase level) hrounds (Nat.le_refl _)
  · exact filter_eq_phrase hstart (Nat.lt_succ_self _)
  · have hcount := countP_isDisjunction_le hpath hstart
    have hopened : (Call.phrase (.chain .or) (start tokens)).place.opened = 0 := rfl
    have hlimit : Filter.depthLimit = 64 := rfl
    rw [List.countP_cons]
    split <;> omega

/-- The tokens of `(a = b) OR c = d OR e IN (f, g)`, at their positions. -/
def alternatives : List Token :=
  ([.opening, .word "a", .sign .equal, .word "b", .closing, .word "OR", .word "c", .sign .equal,
    .word "d", .word "OR", .word "e", .sign .oneOf, .opening, .word "f", .comma, .word "g",
    .closing].zipIdx).map fun (l, position) => ⟨l, position⟩

/-- The readers in alternatives: a group, the round behind it, the second item of a list, and the
calls that lead into the group. -/
theorem readers_progress_in_alternatives :
    GoesOn alternatives 0 0 (phrase .operand (place alternatives 0 0)) ∧
    (∃ position', 0 < position' ∧ position' ≤ 17 ∧
      place alternatives 5 0 = place alternatives position' 0) ∧
    (place alternatives 1 1).opened ≤ 64 ∧
    Behind 2 (place alternatives 5 0) (place alternatives 9 0) ∧
    Behind 2 (place alternatives 13 0) (place alternatives 15 0) ∧
    readerAt (filter 100) .operand (start alternatives) = phrase .operand (start alternatives) ∧
    [Call.phrase (.chain .or) (start alternatives), .phrase (.chain .and) (start alternatives),
      .phrase .operand (start alternatives), .phrase (.chain .or) (start alternatives).entered,
      .phrase (.chain .and) (start alternatives).entered].countP Call.isDisjunction ≤ 65 := by
  have hgroup : Calls (.phrase .operand (start alternatives))
      (.phrase (.chain .or) (start alternatives).entered) := .group rfl (by decide)
  obtain ⟨hgoes, hopened, hround, hitems, -, -, hunique, -, -, hpath⟩ :=
    readers_progress alternatives
  have hoperand := (hgoes 0 0).1 .operand
  refine ⟨hoperand, hoperand (.compare "a" .equal (.text "b")) _ rfl,
    hopened (.phrase .operand (start alternatives)) (.phrase (.chain .or) (place alternatives 1 1))
      (Nat.zero_le 64) (.single hgroup),
    hround .or (.compare "a" .equal (.text "b"))
      (.binary (.compare "a" .equal (.text "b")) .or (.compare "c" .equal (.text "d")))
      _ _ ⟨rfl, rfl, rfl⟩,
    hitems _ _ (.item rfl rfl),
    hunique _ (recurs_readerAt (by decide)) .operand _ (Nat.zero_le 64),
    hpath _ ?_⟩
  exact .cons_cons .first (.cons_cons .first (.cons_cons hgroup (.cons_cons .first (.singleton _))))

end Cursor

end ObjectMapping
