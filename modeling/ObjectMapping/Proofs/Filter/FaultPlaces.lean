import ObjectMapping.Proofs.Filter.Stages

/-! # Where faults are reported

A text that is refused as a filter has a first lexeme with which no filter goes on from the lexemes
before it, unless the text merely ends too early. The readers go through the stages of a filter one
lexeme at a time, and they notice such a lexeme when they come to it; but most of them have passed
it already when they report it, and the place that they give is that of the token behind it.

* **`Cursor.Traced`** — what a reader does, told in stages.
* **`Cursor.tracks_filter`** — the reader of filters goes from stage to stage, or reports a fault
  behind the first lexeme that may not stand where it does.
* **`Filter.fault_position`** — the place that is reported is the right one if what stands before
  the lexeme at fault is a filter, or if nothing stands behind it, and only then. -/

namespace ObjectMapping

open Grammar Stage

namespace Cursor

/-- The tokens from one place to another **lead** from one stage to another. -/
structure Leads (c : Cursor) (s : Stage) (c' : Cursor) (s' : Stage) : Prop where
  /-- Each of the tokens on the way may stand where it does. -/
  exists_passed : ∃ passed : List Token,
    c.rest = passed ++ c'.rest ∧ s.after? (passed.map Token.lexeme) = some s'
  /-- The last token of the text. -/
  lastOffset : c'.lastOffset = c.lastOffset

/-- A fault that readers **report** from a place, which is at a stage. -/
inductive Reports (c : Cursor) (s : Stage) : FilterError → Prop where
  /-- A lexeme may not stand where it does. The place is that of the token behind it, or else that
  of the last token of the text. -/
  | passed {before after : List Token} {t : Token} {s' : Stage} {fault : FilterFault}
      (hrest : c.rest = before ++ t :: after)
      (hbefore : s.after? (before.map Token.lexeme) = some s') (hunfinished : s' ≠ finished)
      (hnext : s'.next? t.lexeme = none) (hfault : fault ≠ .trailing) :
      Reports c s ⟨(after.head?.map Token.offset).getD c.lastOffset, fault⟩
  /-- The text ends too early. The place is that of its last token. -/
  | ended {s' : Stage} {fault : FilterFault} (hrest : s.after? c.lexemes = some s')
      (hunfinished : s' ≠ finished) (hfault : fault ≠ .trailing) : Reports c s ⟨c.lastOffset, fault⟩

/-- What comes of a reading, **told in stages**: it goes from what is due at a place to what is due
behind it, or a limit on depth is exceeded, or a fault is reported. -/
inductive Traced {α : Type} (c : Cursor) (due : Due) (due' : α → Due) :
    Except FilterError (α × Cursor) → Prop where
  /-- The reading succeeds. -/
  | ok {value : α} {c' : Cursor} (hleads : Leads c ⟨due, c.opened⟩ c' ⟨due' value, c.opened⟩)
      (hopened : c'.opened = c.opened) : Traced c due due' (.ok (value, c'))
  /-- A limit on depth is exceeded. -/
  | tooDeep {position : Nat} : Traced c due due' (.error ⟨position, .tooDeep⟩)
  /-- A fault is reported. -/
  | fault {e : FilterError} (h : Reports c ⟨due, c.opened⟩ e) : Traced c due due' (.error e)

variable {c c' : Cursor} {s s' : Stage} {l : Lexeme}

/-! ### Reports -/

/-- Places one after the other. -/
theorem Leads.trans {c'' : Cursor} {s'' : Stage} (h : Leads c s c' s') (h' : Leads c' s' c'' s'') :
    Leads c s c'' s'' := by
  obtain ⟨passed, hrest, hpassed⟩ := h.exists_passed
  obtain ⟨passed', hrest', hpassed'⟩ := h'.exists_passed
  refine ⟨⟨passed ++ passed', ?_, ?_⟩, h'.lastOffset.trans h.lastOffset⟩
  · rw [hrest, hrest', List.append_assoc]
  · rw [List.map_append, after?_append_of_after? hpassed, hpassed']

/-- The token here leads to the next place. -/
theorem Leads.next (hl : c.lexeme? = some l) (hnext : s.next? l = some s') :
    Leads c s c.next s' := by
  obtain ⟨t, ht, rfl⟩ := Option.map_eq_some_iff.1 hl
  obtain ⟨rest, hrest⟩ := List.head?_eq_some_iff.1 ht
  refine ⟨⟨[t], ?_, ?_⟩, rfl⟩
  · rw [Cursor.next, hrest]
    rfl
  · rw [List.map_singleton, after?_cons_of_next? hnext]
    rfl

/-- What is reported from a place is reported from each that leads there. -/
theorem Reports.of_leads {e : FilterError} (hleads : Leads c s c' s') (h : Reports c' s' e) :
    Reports c s e := by
  obtain ⟨passed, hrest, hpassed⟩ := hleads.exists_passed
  cases h with
  | @passed before after t s'' fault hrest' hbefore hunfinished hnext hfault =>
    have htokens : c.rest = (passed ++ before) ++ t :: after := by
      rw [hrest, hrest', List.append_assoc]
    have hstage : s.after? ((passed ++ before).map Token.lexeme) = some s'' := by
      rw [List.map_append, after?_append_of_after? hpassed, hbefore]
    rw [hleads.lastOffset]
    exact .passed htokens hstage hunfinished hnext hfault
  | @ended s'' fault hended hunfinished hfault =>
    have hstage : s.after? c.lexemes = some s'' := by
      rw [lexemes, hrest, List.map_append, after?_append_of_after? hpassed]
      exact hended
    rw [hleads.lastOffset]
    exact .ended hstage hunfinished hfault

/-- A reader that has passed a token which may not stand here reports it from the next place. -/
theorem Reports.here {fault : FilterFault} (hunfinished : s ≠ finished)
    (hnext : ∀ l, c.lexeme? = some l → s.next? l = none) (hfault : fault ≠ .trailing) :
    Reports c s ⟨c.next.offset, fault⟩ := by
  -- with no token left there is nothing to pass, and the last token's place is reported
  cases hrest : c.rest with
  | nil =>
    have hoffset : c.next.offset = c.lastOffset := by rw [offset, next, hrest]; rfl
    have hstage : s.after? c.lexemes = some s := by rw [lexemes, hrest]; rfl
    rw [hoffset]
    exact .ended hstage hunfinished hfault
  | cons t rest =>
    have hoffset : c.next.offset = (rest.head?.map Token.offset).getD c.lastOffset := by
      rw [offset, next, hrest]
      rfl
    have hlexeme : c.lexeme? = some t.lexeme := by rw [lexeme?, hrest]; rfl
    have htokens : c.rest = [] ++ t :: rest := hrest
    rw [hoffset]
    exact .passed htokens rfl hunfinished (hnext _ hlexeme) hfault

/-! ### Readings one after the other -/

section
variable {α β : Type} {due mid : Due} {due' : α → Due} {due'' : β → Due}

/-- A reading from a place is one from each that leads there. -/
theorem Traced.of_leads {result : Except FilterError (α × Cursor)}
    (hleads : Leads c ⟨due, c.opened⟩ c' ⟨mid, c.opened⟩) (hopened : c'.opened = c.opened)
    (h : Traced c' mid due' result) : Traced c due due' result := by
  cases h with
  | ok hleads' hopened' =>
    rw [hopened] at hleads' hopened'
    exact .ok (hleads.trans hleads') hopened'
  | tooDeep => exact .tooDeep
  | fault h =>
    rw [hopened] at h
    exact .fault (h.of_leads hleads)

/-- **Readings one after the other**: the second one goes on from what the first one leads to. -/
theorem Traced.bind {result : Except FilterError (α × Cursor)}
    {f : α × Cursor → Except FilterError (β × Cursor)} (h : Traced c due due' result)
    (hf : ∀ value c', result = .ok (value, c') → Traced c' (due' value) due'' (f (value, c'))) :
    Traced c due due'' (result >>= f) := by
  cases h with
  | ok hleads hopened => exact .of_leads hleads hopened (hf _ _ rfl)
  | tooDeep => exact .tooDeep
  | fault h => exact .fault h

/-- Nothing more is read. -/
theorem Traced.pure {value : α} (h : due' value = due) : Traced c due due' (.ok (value, c)) := by
  refine .ok ?_ rfl
  rw [h]
  exact ⟨⟨[], rfl, rfl⟩, rfl⟩

/-- A lexeme is passed, and the reading goes on behind it. -/
theorem Traced.next {result : Except FilterError (α × Cursor)}
    (hl : c.lexeme? = some l) (hnext : next? ⟨due, c.opened⟩ l = some ⟨mid, c.opened⟩)
    (h : Traced c.next mid due' result) : Traced c due due' result :=
  .of_leads (.next hl hnext) rfl h

/-- A lexeme that may not stand here is passed and reported. -/
theorem Traced.fail {fault : FilterFault} (hdue : due ≠ .connective)
    (hfault : fault ≠ .trailing)
    (hnext : ∀ l, c.lexeme? = some l → next? ⟨due, c.opened⟩ l = none) :
    Traced c due due' (c.next.fail fault) :=
  .fault (.here (fun h => hdue (congrArg Stage.due h)) hnext hfault)

end

/-! ### Readers of conditions -/

/-- Where no text is there is no term. -/
theorem isTerm_eq_false_of_text? {l : Lexeme} (h : c.text? = none) (hl : c.lexeme? = some l) :
    isTerm l = false := by
  rw [text?, hl] at h
  cases l with
  | quoted _ | word _ => cases h
  | _ => rfl

/-- Where a text is there is a term. -/
theorem exists_lexeme_of_text? {text : String} (h : c.text? = some text) :
    ∃ t : Grammar.Term, c.lexeme? = some t.lexeme := by
  obtain ⟨t, ht, -⟩ := exists_term_of_text? h
  exact ⟨t, ht⟩

/-- The name of a field, where no parenthesis is. -/
theorem traced_field (hopening : c.lexeme? ≠ some .opening) :
    Traced c .operand (fun _ => .comparison) c.field := by
  unfold field
  split
  · next text htext =>
    obtain ⟨t, ht⟩ := exists_lexeme_of_text? htext
    exact .next ht (next?_operand_term t) (.pure rfl)
  · next htext =>
    refine .fail (by decide) (by decide) fun l hl => ?_
    have hne : l ≠ .opening := by
      rintro rfl
      exact hopening hl
    simp [next?, hne, isTerm_eq_false_of_text? htext hl]

/-- A comparison tells whether a list is due. -/
theorem traced_comparison :
    Traced c .comparison (fun sign => if sign = .oneOf then .list else .scalar) c.comparison := by
  unfold comparison
  split
  · next sign hsign => exact .next hsign rfl (.pure rfl)
  · next hnone =>
    refine .fail (by decide) (by decide) fun l hl => ?_
    cases l with
    | sign sign => exact absurd hl (hnone sign)
    | _ => rfl

/-- A literal that is no list. -/
theorem traced_scalar : Traced c .scalar (fun _ => .connective) c.scalar := by
  unfold scalar
  split
  · next hquoted => exact .next hquoted rfl (.pure rfl)
  · next hword => exact .next hword rfl (.pure rfl)
  · next hquoted hword =>
    refine .fail (by decide) (by decide) fun l hl => ?_
    cases l with
    | quoted s => exact absurd hl (hquoted s)
    | word s => exact absurd hl (hword s)
    | _ => rfl

/-- The items of a list from one item on. A first item is read like a further one. -/
theorem traced_items {due : Due} (hdue : due ≠ .connective)
    (hitem : ∀ l, c.lexeme? = some l → next? ⟨due, c.opened⟩ l = next? ⟨.item, c.opened⟩ l) :
    Traced c due (fun _ => .connective) c.items := by
  -- the induction follows the reader, and behind a comma a further item is due
  fun_induction items c generalizing due with
  | case1 c htext =>
    refine .fail hdue (by decide) fun l hl => ?_
    rw [hitem l hl]
    simp [next?, isTerm_eq_false_of_text? htext hl]
  | case2 c text htext hcomma ih =>
    obtain ⟨t, ht⟩ := exists_lexeme_of_text? htext
    have hmore := ih (by decide) fun _ _ => rfl
    refine .next ht ((hitem _ ht).trans (next?_item_term t)) (.next hcomma rfl ?_)
    exact hmore.bind fun _ _ _ => .pure rfl
  | case3 c text htext hclosing =>
    obtain ⟨t, ht⟩ := exists_lexeme_of_text? htext
    refine .next ht ((hitem _ ht).trans (next?_item_term t)) (.next hclosing rfl ?_)
    exact .pure rfl
  | case4 c text htext hcomma hclosing =>
    obtain ⟨t, ht⟩ := exists_lexeme_of_text? htext
    refine .next ht ((hitem _ ht).trans (next?_item_term t)) ?_
    refine .fail (by decide) (by decide) fun l hl => ?_
    have hne : l ≠ .comma ∧ l ≠ .closing := by
      constructor <;> rintro rfl <;> contradiction
    simp [next?, hne]

/-- A list in parentheses. -/
theorem traced_list : Traced c .list (fun _ => .connective) c.list := by
  unfold list
  split
  · next hopening =>
    refine .next hopening rfl ?_
    split
    · next hclosing => exact .next hclosing rfl (.pure rfl)
    · next hclosing =>
      have hitems : Traced c.next .firstItem (fun _ => .connective) c.next.items := by
        refine traced_items (by decide) fun l hl => ?_
        have hne : l ≠ .closing := by
          rintro rfl
          exact hclosing hl
        simp [next?, hne]
      exact hitems.bind fun _ _ _ => .pure rfl
  · next hopening =>
    refine .fail (by decide) (by decide) fun l hl => ?_
    have hne : l ≠ .opening := by
      rintro rfl
      exact hopening hl
    simp [next?, hne]

/-- A literal is what is due behind its comparison. -/
theorem traced_literal (sign : Comparison) :
    Traced c (if sign = .oneOf then .list else .scalar) (fun _ => .connective)
      (c.literal sign) := by
  unfold literal
  split
  · exact traced_list
  · exact traced_scalar

/-- **A condition**, where no parenthesis is. -/
theorem traced_condition (hopening : c.lexeme? ≠ some .opening) :
    Traced c .operand (fun _ => .connective) c.condition := by
  refine (traced_field hopening).bind fun _ c _ => ?_
  refine traced_comparison.bind fun sign c _ => ?_
  exact (traced_literal sign).bind fun _ _ _ => .pure rfl

/-! ### Readers of filters -/

/-- A reader of filters **tracks** the stages: it is told in stages, and nothing that joins what the
level joins comes behind what it reads. -/
def Tracks (level : Level) (reader : FilterReader) : Prop :=
  ∀ c, Traced c .operand (fun _ => .connective) (reader c) ∧
    ∀ f c', reader c = .ok (f, c') → Ends level c'.lexemes

variable {connective : Connective} {inner reader : FilterReader}

/-- Behind a filter in parentheses nothing but the closing one may stand. -/
theorem next?_eq_none_of_ends {n : Nat} {l : Lexeme} (hends : Ends (.chain .or) c.lexemes)
    (hl : c.lexeme? = some l) (hopen : l = .closing → n = 0) :
    next? ⟨.connective, n⟩ l = none := by
  rw [lexeme?_eq] at hl
  obtain ⟨more, hmore⟩ := List.head?_eq_some_iff.1 hl
  rw [hmore] at hends
  refine Option.eq_none_iff_forall_ne_some.2 fun s hs => ?_
  obtain ⟨k, keyword, rfl, -⟩ | ⟨m, hm, rfl, -⟩ := next?_connective hs
  · exact hends k (by cases k <;> decide) keyword rfl
  · rw [hopen rfl] at hm
    cases hm

/-- A filter in parentheses is read at the stage inside them. -/
theorem traced_group (hinner : Tracks (.chain .or) inner) (hopening : c.lexeme? = some .opening) :
    Traced c .operand (fun _ => .connective)
      (inner c.entered >>= fun (f, c') =>
        let c'' : Cursor := { c' with opened := c'.opened - 1 }
        match c''.lexeme? with
        | some .closing => Except.ok (f, c''.next)
        | _ => c''.next.fail .noClosing) := by
  obtain ⟨htraced, hends⟩ := hinner c.entered
  -- inside the parentheses one more is open, at the place and at the stage alike
  have hentered : Leads c ⟨.operand, c.opened⟩ c.entered ⟨.operand, c.opened + 1⟩ := by
    obtain ⟨hpassed, hlast⟩ := Leads.next (s := ⟨.operand, c.opened⟩) hopening rfl
    exact ⟨hpassed, hlast⟩
  cases hresult : inner c.entered with
  | error e =>
    rw [hresult] at htraced
    cases htraced with
    | tooDeep => exact .tooDeep
    | fault h => exact .fault (h.of_leads hentered)
  | ok result =>
    obtain ⟨f, c'⟩ := result
    have hends := hends f c' hresult
    rw [hresult] at htraced
    cases htraced with | ok hinside hopened =>
    have hleads := hentered.trans hinside
    -- the filter inside has ended, so only the closing parenthesis may stand here
    show Traced c .operand _ (match c'.lexeme? with
      | some .closing => .ok (f, { c'.next with opened := c'.opened - 1 })
      | _ => c'.next.fail .noClosing)
    split
    · next hclosing =>
      have hclose : next? ⟨.connective, c.opened + 1⟩ .closing = some ⟨.connective, c.opened⟩ := rfl
      obtain ⟨hpassed, hlast⟩ := hleads.trans (.next hclosing hclose)
      refine .ok ⟨hpassed, hlast⟩ ?_
      show c'.opened - 1 = c.opened
      rw [hopened, opened_entered, Nat.add_sub_cancel]
    · next hclosing =>
      refine .fault (.of_leads hleads (.here (by simp [finished]) (fun l hl => ?_) (by decide)))
      refine next?_eq_none_of_ends hends hl ?_
      rintro rfl
      exact absurd hl hclosing

/-- Operands are tracked, if what stands in parentheses is. -/
theorem tracks_operand (hinner : Tracks (.chain .or) inner) : Tracks .operand (operand inner) := by
  refine fun c => ⟨?_, fun _ _ _ => .operand⟩
  unfold operand
  split
  · next hopening =>
    split
    · exact .tooDeep
    · exact traced_group hinner hopening
  · next hopening => exact traced_condition hopening

/-- The rest of a chain. -/
theorem traced_chain (hreader : Tracks (.joinedBy connective) reader) (rounds : Nat)
    (left : Filter) :
    Traced c .connective (fun _ => .connective) (chain connective reader rounds left c) := by
  -- each round goes from behind an operand to behind the next one
  induction rounds generalizing left c with
  | zero => exact .pure rfl
  | succ rounds ih =>
    rw [chain]
    split
    · next hat =>
      obtain ⟨keyword, hkeyword⟩ := exists_keyword_of_isAt hat
      refine .next hkeyword (next?_keyword keyword) ((hreader c.next).1.bind fun right c' _ => ?_)
      show Traced c' _ _ (c.node left connective right >>= fun joined =>
        chain connective reader rounds joined c')
      unfold node
      split
      · exact .tooDeep
      · exact ih _
    · exact .pure rfl

/-- What is read leaves no more tokens than there were. -/
theorem Traced.length_le {α : Type} {due : Due} {due' : α → Due} {value : α}
    (h : Traced c due due' (.ok (value, c'))) : c'.rest.length ≤ c.rest.length := by
  cases h with | ok hleads _ =>
  obtain ⟨passed, hrest, -⟩ := hleads.exists_passed
  rw [hrest, List.length_append]
  exact Nat.le_add_left _ _

/-- Where the connective of a chain does not follow the chain ends. -/
theorem ends_of_isAt_eq_false (hends : Ends (.joinedBy connective) c.lexemes)
    (hat : c.isAt connective = false) : Ends (.chain connective) c.lexemes := by
  refine hends.chain fun keyword hkeyword => ?_
  obtain ⟨more, hmore⟩ := List.head?_eq_some_iff.1 hkeyword
  rw [isAt_keyword hmore] at hat
  cases hat

/-- A chain is read up to where it ends. -/
theorem ends_chain (hreader : Tracks (.joinedBy connective) reader) {rounds : Nat}
    {left f : Filter} (hends : Ends (.joinedBy connective) c.lexemes)
    (hrounds : c.rest.length ≤ rounds)
    (h : chain connective reader rounds left c = .ok (f, c')) :
    Ends (.chain connective) c'.lexemes := by
  -- there is a round for each token that is left, so the rounds do not run out
  induction rounds generalizing left c with
  | zero =>
    cases h
    refine ends_of_isAt_eq_false hends (Bool.eq_false_iff.2 fun hat => ?_)
    obtain ⟨n, hn⟩ := rest_length_of_isAt hat
    omega
  | succ rounds ih =>
    rw [chain] at h
    split at h
    · obtain ⟨⟨right, after⟩, hright, h⟩ := bind_eq_ok_iff.1 h
      obtain ⟨joined, -, h⟩ := bind_eq_ok_iff.1 h
      obtain ⟨htraced, hends'⟩ := hreader c.next
      rw [hright] at htraced
      have hlength : after.rest.length ≤ c.rest.tail.length := htraced.length_le
      rw [List.length_tail] at hlength
      exact ih (hends' right after hright) (by omega) h
    · next hat =>
      cases h
      exact ends_of_isAt_eq_false hends (Bool.eq_false_iff.2 hat)

/-- Chains are tracked, if the phrases that they join are. -/
theorem tracks_operands (hreader : Tracks (.joinedBy connective) reader) :
    Tracks (.chain connective) (operands connective reader) := by
  intro c
  obtain ⟨htraced, hends⟩ := hreader c
  refine ⟨htraced.bind fun left after _ => traced_chain hreader _ left, fun f c' h => ?_⟩
  obtain ⟨⟨left, after⟩, hleft, h⟩ := bind_eq_ok_iff.1 h
  exact ends_chain hreader (hends left after hleft) (Nat.le_refl _) h

/-- **The reader of filters tracks the stages.** -/
theorem tracks_filter (room : Nat) : Tracks (.chain .or) (filter room) := by
  induction room with
  | zero =>
    refine fun c => ⟨.tooDeep, ?_⟩
    intro f c' h
    cases h
  | succ room ih => exact tracks_operands (tracks_operands (tracks_operand ih))

end Cursor

/-! ### The place of a fault -/

namespace Filter

/-- A token is **at fault** in a text: it is the first one with which no filter goes on from the
tokens before it. -/
structure AtFault (tokens before : List Token) (t : Token) (after : List Token) : Prop where
  /-- The tokens before it and behind it. -/
  tokens_eq : tokens = before ++ t :: after
  /-- A filter may begin like this. -/
  begins : Begins (before.map Token.lexeme)
  /-- But no filter goes on with the token. -/
  not_begins : ¬ Begins ((before ++ [t]).map Token.lexeme)

/-- A text is **complete** with tokens: they are those of a filter. -/
def Complete (tokens : List Token) : Prop :=
  ∃ d : Phrase (.chain .or), d.lexemes = tokens.map Token.lexeme

/-- Tokens are complete when their lexemes lead to the end. -/
theorem complete_iff {tokens : List Token} :
    Complete tokens ↔ start.after? (tokens.map Token.lexeme) = some finished :=
  finished_iff_exists_phrase.symm

/-- Tokens lead nowhere with one among them that may not stand where it does. -/
theorem after?_eq_none_of_next? {before : List Token} {t : Token} {s : Stage}
    (hbefore : start.after? (before.map Token.lexeme) = some s) (hnext : s.next? t.lexeme = none)
    (after : List Token) : start.after? ((before ++ t :: after).map Token.lexeme) = none := by
  rw [List.map_append, after?_append_of_after? hbefore, List.map_cons, after?, hnext]
  rfl

/-- A token that may not stand at the stage which those before it lead to is at fault. -/
theorem atFault_of_next? {tokens before after : List Token} {t : Token} {s : Stage}
    (hwritable : ∀ t ∈ tokens, ∃ cs, Token.Delimited cs [t.lexeme])
    (htokens : tokens = before ++ t :: after)
    (hbefore : start.after? (before.map Token.lexeme) = some s) (hnext : s.next? t.lexeme = none) :
    AtFault tokens before t after := by
  have hlexemes : ∀ l ∈ before.map Token.lexeme, ∃ cs, Token.Delimited cs [l] := by
    refine List.forall_mem_map.2 fun u hu => hwritable u ?_
    rw [htokens]
    exact List.mem_append_left _ hu
  refine ⟨htokens, (begins_iff hlexemes).2 ⟨s, hbefore⟩, fun hbegins => ?_⟩
  obtain ⟨s', hs'⟩ := hbegins.exists_stage
  rw [after?_eq_none_of_next? hbefore hnext []] at hs'
  cases hs'

/-- The place that is reported for a token, or for the one behind it. -/
theorem lastOffset_start {tokens before after : List Token} {t : Token}
    (h : tokens = before ++ t :: after) :
    (after.head?.map Token.offset).getD (Cursor.start tokens).lastOffset =
      (after.head?.map Token.offset).getD t.offset := by
  subst h
  cases after with
  | nil => simp [Cursor.start]
  | cons => rfl

/-- The token behind another one is at a different place. -/
theorem offset_eq_iff {tokens before after : List Token} {t : Token}
    (h : tokens = before ++ t :: after)
    (hpairwise : tokens.Pairwise fun t u => t.offset < u.offset) :
    (after.head?.map Token.offset).getD t.offset = t.offset ↔ after = [] := by
  subst h
  cases after with
  | nil => simp
  | cons u after =>
    have hlt := (List.pairwise_cons.1 (List.pairwise_append.1 hpairwise).2.1).1 u
      List.mem_cons_self
    simp [Nat.ne_of_gt hlt]

/-- What is read leads to the end, or a fault is reported. -/
theorem exists_fault_of_ofTokens {tokens : List Token} (hne : tokens ≠ []) {e : FilterError}
    (h : ofTokens tokens = .error e) (hdepth : e.fault ≠ .tooDeep) :
    Cursor.Reports (.start tokens) start e ∨
      ∃ before t after, tokens = before ++ t :: after ∧ Complete before ∧
        finished.next? t.lexeme = none ∧ e = ⟨t.offset, .trailing⟩ := by
  have hempty : ¬ tokens.isEmpty = true := by rwa [List.isEmpty_iff]
  rw [ofTokens, if_neg hempty] at h
  obtain ⟨htraced, hends⟩ := Cursor.tracks_filter (depthLimit + 1) (.start tokens)
  -- either the reader reports the fault, or it has read a filter behind which there is a token
  cases hresult : (Cursor.start tokens).filter (depthLimit + 1) with
  | error e' =>
    rw [hresult] at h htraced
    cases h
    cases htraced with
    | tooDeep => exact absurd rfl hdepth
    | fault h => exact .inl h
  | ok result =>
    obtain ⟨f, c⟩ := result
    have hends := hends f c hresult
    rw [hresult] at h htraced
    cases htraced with | ok hleads hopened =>
    obtain ⟨before, hrest, hbefore⟩ := hleads.exists_passed
    dsimp only [bind, Except.bind] at h
    split at h
    · cases h
    · next t after hafter =>
      cases h
      rw [hafter] at hrest
      have hl : c.lexeme? = some t.lexeme := by
        rw [Cursor.lexeme?, hafter]
        rfl
      exact .inr ⟨before, t, after, hrest, complete_iff.2 hbefore,
        Cursor.next?_eq_none_of_ends hends hl fun _ => rfl, rfl⟩

/-- Tokens that are refused for another cause than their depth are not those of a filter. -/
theorem not_complete_of_ofTokens {tokens : List Token} (hne : tokens ≠ []) {e : FilterError}
    (h : ofTokens tokens = .error e) (hdepth : e.fault ≠ .tooDeep) : ¬ Complete tokens := by
  rw [complete_iff]
  intro hfinished
  obtain hreports | ⟨before, t, after, rfl, hcomplete, hnext, rfl⟩ :=
    exists_fault_of_ofTokens hne h hdepth
  · cases hreports with
    | @passed before after t s fault htokens hbefore hunfinished hnext hfault =>
      have hnone := after?_eq_none_of_next? hbefore hnext after
      rw [← htokens] at hnone
      cases hnone.symm.trans hfinished
    | ended hended hunfinished hfault =>
      exact hunfinished (Option.some.inj (hended.symm.trans hfinished))
  · have hnone := after?_eq_none_of_next? (complete_iff.1 hcomplete) hnext after
    cases hnone.symm.trans hfinished

/-- What is read is grammatical. -/
theorem grammatical_of_read {text : String} {f : Filter} (h : read text = .ok f) :
    Grammatical text := by
  obtain ⟨tokens, hscan, h⟩ := bind_eq_ok_iff.1 h
  refine ⟨tokens, hscan, or_iff_not_imp_left.2 fun hne => ?_⟩
  obtain ⟨d, hlexemes, -⟩ := (ofTokens_eq_ok_iff hne).1 h
  exact ⟨d, hlexemes⟩

/-- What is grammatical is refused for its depth only. -/
theorem Grammatical.fault_eq_tooDeep {text : String} {e : FilterError} (hg : Grammatical text)
    (h : read text = .error e) : e.fault = .tooDeep := by
  obtain ⟨tokens, hscan, hderived⟩ := hg
  rw [read, hscan] at h
  have h : ofTokens tokens = .error e := h
  by_contra hdepth
  obtain rfl | hderived := hderived
  · cases h
  · have hne : tokens ≠ [] := by
      rintro rfl
      cases h
    exact not_complete_of_ofTokens hne h hdepth hderived

/-- **Where a fault is reported.** A text that is refused for another cause than its depth has a
token at fault or ends too early. In the second case the place is that of the last token. In the
first case it is that of the token at fault exactly when the tokens before it are those of a filter,
which is when the text is refused because it goes on, or when the token at fault is the last one.
Otherwise it is the place of the token behind. -/
theorem fault_position {text : String} {tokens : List Token} {e : FilterError}
    (hscan : Token.scan 0 text.toList = .ok tokens) (h : read text = .error e)
    (hdepth : e.fault ≠ .tooDeep) :
    (∃ before t after, AtFault tokens before t after ∧
      (e.fault = .trailing ↔ Complete before) ∧
      (e.position = t.offset ↔ Complete before ∨ after = []) ∧
      (¬ Complete before → ∀ u more, after = u :: more → e.position = u.offset)) ∨
    (Begins (tokens.map Token.lexeme) ∧ ¬ Complete tokens ∧
      ∃ last, tokens.getLast? = some last ∧ e.position = last.offset) := by
  have hread : ofTokens tokens = .error e := by
    rw [read, hscan] at h
    exact h
  have hne : tokens ≠ [] := by
    rintro rfl
    cases hread
  have hwritable := Token.exists_delimited_of_scan hscan
  obtain ⟨offset, hscans⟩ := Token.scan_eq_ok_iff.1 hscan
  have hpairwise := hscans.pairwise_offset
  obtain hreports | ⟨before, t, after, htokens, hcomplete, hnext, rfl⟩ :=
    exists_fault_of_ofTokens hne hread hdepth
  · cases hreports with
    | @passed before after t s fault htokens hbefore hunfinished hnext hfault =>
      -- the tokens before the one at fault lead to a stage that is not the end
      have htokens : tokens = before ++ t :: after := htokens
      have hincomplete : ¬ Complete before := by
        rw [complete_iff, hbefore]
        exact fun h => hunfinished (Option.some.inj h)
      refine .inl ⟨before, t, after, atFault_of_next? hwritable htokens hbefore hnext,
        iff_of_false hfault hincomplete, ?_, ?_⟩
      · rw [or_iff_right hincomplete, lastOffset_start htokens]
        exact offset_eq_iff htokens hpairwise
      · rintro - u more rfl
        rfl
    | @ended s fault hended hunfinished hfault =>
      have hlexemes : ∀ l ∈ tokens.map Token.lexeme, ∃ cs, Token.Delimited cs [l] :=
        List.forall_mem_map.2 hwritable
      have hlast : tokens.getLast? = some (tokens.getLast hne) := List.getLast?_eq_some_getLast hne
      refine .inr ⟨(begins_iff hlexemes).2 ⟨s, hended⟩, not_complete_of_ofTokens hne hread hdepth,
        tokens.getLast hne, hlast, ?_⟩
      show (tokens.getLast?.map Token.offset).getD 0 = _
      rw [hlast]
      rfl
  · exact .inl ⟨before, t, after,
      atFault_of_next? hwritable htokens (complete_iff.1 hcomplete) hnext,
      iff_of_true rfl hcomplete, iff_of_true rfl (.inl hcomplete),
      fun hincomplete => absurd hcomplete hincomplete⟩

/-- A text that goes on behind a filter is reported where it goes on. -/
theorem fault_position_behind_filter :
    ∃ (text : String) (tokens before after : List Token) (t : Token) (e : FilterError),
      Token.scan 0 text.toList = .ok tokens ∧ read text = .error e ∧ e.fault = .trailing ∧
        AtFault tokens before t after ∧ e.position = t.offset := by
  let text := "a = 1 b = 2"
  let tokens : List Token := [⟨.word "a", 0⟩, ⟨.sign .equal, 2⟩, ⟨.word "1", 4⟩, ⟨.word "b", 6⟩,
    ⟨.sign .equal, 8⟩, ⟨.word "2", 10⟩]
  have hscan : Token.scan 0 text.toList = .ok tokens := by decide +kernel
  have hread : read text = .error ⟨6, .trailing⟩ := by decide +kernel
  obtain ⟨before, t, after, hfault, hcause, hplace, -⟩ | ⟨hbegins, -⟩ :=
    fault_position hscan hread (by decide)
  · exact ⟨text, tokens, before, after, t, _, hscan, hread, rfl, hfault,
      hplace.2 (.inl (hcause.1 rfl))⟩
  · obtain ⟨s, hs⟩ := hbegins.exists_stage
    have hnone : start.after? (tokens.map Token.lexeme) = none := by decide
    cases hnone.symm.trans hs

/-- Behind the name of a field the second word is at fault, but what is reported is the place of the
comparison behind it. -/
theorem fault_reported_behind_token :
    ∃ (tokens before after : List Token) (t : Token),
      Token.scan 0 "a b = 1".toList = .ok tokens ∧ AtFault tokens before t after ∧ t.offset = 2 ∧
        read "a b = 1" = .error ⟨4, .noComparison⟩ := by
  let before : List Token := [⟨.word "a", 0⟩]
  let after : List Token := [⟨.sign .equal, 4⟩, ⟨.word "1", 6⟩]
  have hscan : Token.scan 0 "a b = 1".toList = .ok (before ++ ⟨.word "b", 2⟩ :: after) := by
    decide +kernel
  have hfault : AtFault (before ++ ⟨.word "b", 2⟩ :: after) before ⟨.word "b", 2⟩ after :=
    atFault_of_next? (Token.exists_delimited_of_scan hscan) rfl
      (show _ = some ⟨.comparison, 0⟩ by decide) rfl
  exact ⟨_, before, after, _, hscan, hfault, rfl, by decide +kernel⟩

end Filter

end ObjectMapping
