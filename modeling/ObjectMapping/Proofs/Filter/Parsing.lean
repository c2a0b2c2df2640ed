import ObjectMapping.Proofs.Failure
import ObjectMapping.Proofs.Filter.Reading

/-! # Reading finds the derivation

A text is read as a filter exactly when its lexemes have a derivation in the grammar whose tree the
filter is, and neither the tree nor the parentheses are nested too deep. In one direction the
readers are followed from the inside out, and each of them builds the derivation of what it has gone
over (`Cursor.Finds`). In the other direction the derivation is followed, and what comes behind a
phrase tells the reader where to stop (`Grammar.Ends`).

* **`Cursor.finds_filter`** — what is read has a derivation.
* **`Cursor.phrase_gives`** — what has a derivation is read.
* **`Filter.read_eq_ok_iff_derivation`** — what a text is read as. -/

namespace ObjectMapping

open Grammar

namespace Cursor

/-- A reading **covers** lexemes from one place to another; parentheses that were opened on the way
are closed again. -/
structure Covers (c : Cursor) (lexemes : List Lexeme) (c' : Cursor) : Prop where
  lexemes_eq : c.lexemes = lexemes ++ c'.lexemes
  opened_eq : c'.opened = c.opened

namespace Covers

variable {c c₁ c₂ : Cursor} {l : Lexeme} {ls ls' : List Lexeme}

/-- Where nothing is read nothing is covered. -/
theorem refl : Covers c [] c := ⟨rfl, rfl⟩

/-- What two readings cover one after the other. -/
theorem trans (h : Covers c ls c₁) (h' : Covers c₁ ls' c₂) : Covers c (ls ++ ls') c₂ :=
  ⟨by rw [h.lexemes_eq, h'.lexemes_eq, List.append_assoc], h'.opened_eq.trans h.opened_eq⟩

/-- Going on covers the lexeme here. -/
theorem next (h : c.lexeme? = some l) : Covers c [l] c.next := by
  rw [lexeme?_eq] at h
  obtain ⟨more, hmore⟩ := List.head?_eq_some_iff.1 h
  exact ⟨by rw [lexemes_next, hmore]; rfl, rfl⟩

/-- One lexeme here, and what is covered behind it. -/
theorem cons (h : c.lexeme? = some l) (h' : Covers c.next ls c₂) : Covers c (l :: ls) c₂ :=
  (next h).trans h'

end Covers

variable {c c' : Cursor}

/-! ### What is read has a derivation -/

/-- A text here is that of a term. -/
theorem exists_term_of_text? {s : String} (h : c.text? = some s) :
    ∃ t : Grammar.Term, c.lexeme? = some t.lexeme ∧ t.text = s := by
  unfold text? at h
  split at h
  · next heq =>
    cases h
    exact ⟨.quoted s, heq, rfl⟩
  · next heq =>
    cases h
    exact ⟨.bare s, heq, rfl⟩
  · cases h

/-- The name of a field is a term. -/
theorem field_eq_ok {s : String} (h : c.field = .ok (s, c')) :
    ∃ t : Grammar.Term, t.text = s ∧ Covers c [t.lexeme] c' := by
  unfold field at h
  split at h
  · next hs =>
    cases h
    obtain ⟨t, ht, htext⟩ := exists_term_of_text? hs
    exact ⟨t, htext, .next ht⟩
  · cases h

/-- A comparison is a sign. -/
theorem comparison_eq_ok {sign : Comparison} (h : c.comparison = .ok (sign, c')) :
    Covers c [.sign sign] c' := by
  unfold comparison at h
  split at h
  · next hs =>
    cases h
    exact .next hs
  · cases h

/-- A literal that is no list is one for which a term stands. -/
theorem scalar_eq_ok {l : Literal} (h : c.scalar = .ok (l, c')) :
    ∃ v : Scalar, v.literal = l ∧ Covers c [v.term.lexeme] c' := by
  unfold scalar at h
  split at h
  · next s hs =>
    cases h
    exact ⟨⟨.quoted s, .text s, rfl⟩, rfl, .next hs⟩
  · next s hs =>
    cases h
    exact ⟨⟨.bare s, .ofWord s, Literal.standsFor_ofWord s⟩, rfl, .next hs⟩
  · cases h

/-- The items of a list are terms with commas between them, at least one, and the closing
parenthesis. -/
theorem items_eq_ok {texts : List String} (h : c.items = .ok (texts, c')) :
    ∃ t rest, (t :: rest).map Term.text = texts ∧
      Covers c (itemLexemes (t :: rest) ++ [.closing]) c' := by
  fun_induction items c generalizing texts c' with
  | case1 c hs => cases h
  | case2 c s hs hcomma ih =>
    obtain ⟨⟨more, c₁⟩, hmore, h⟩ := bind_eq_ok_iff.1 h
    cases h
    obtain ⟨t, ht, rfl⟩ := exists_term_of_text? hs
    obtain ⟨u, rest, rfl, hcovers⟩ := ih hmore
    exact ⟨t, u :: rest, rfl, .cons ht (.cons hcomma hcovers)⟩
  | case3 c s hs hclose =>
    cases h
    obtain ⟨t, ht, rfl⟩ := exists_term_of_text? hs
    exact ⟨t, [], rfl, .cons ht (.next hclose)⟩
  | case4 c s hs => cases h

/-- A list is items in parentheses. -/
theorem list_eq_ok {l : Literal} (h : c.list = .ok (l, c')) :
    ∃ items : List Grammar.Term, .list (items.map Term.text) = l ∧
      Covers c (.opening :: (itemLexemes items ++ [.closing])) c' := by
  unfold list at h
  split at h
  · next hopen =>
    split at h
    · next hclose =>
      cases h
      exact ⟨[], rfl, .cons hopen (.next hclose)⟩
    · obtain ⟨⟨texts, c₁⟩, htexts, h⟩ := bind_eq_ok_iff.1 h
      cases h
      obtain ⟨t, rest, rfl, hcovers⟩ := items_eq_ok htexts
      exact ⟨t :: rest, rfl, .cons hopen hcovers⟩
  · cases h

/-- A condition that is read is derived. -/
theorem condition_eq_ok {f : Filter} (h : c.condition = .ok (f, c')) :
    ∃ clause : Clause, .condition clause.condition = f ∧ Covers c clause.lexemes c' := by
  obtain ⟨⟨s, c₁⟩, hfield, h⟩ := bind_eq_ok_iff.1 h
  obtain ⟨⟨sign, c₂⟩, hsign, h⟩ := bind_eq_ok_iff.1 h
  obtain ⟨⟨l, c₃⟩, hliteral, h⟩ := bind_eq_ok_iff.1 h
  cases h
  obtain ⟨t, rfl, hcovers₁⟩ := field_eq_ok hfield
  have hcovers := hcovers₁.trans (comparison_eq_ok hsign)
  unfold literal at hliteral
  split at hliteral
  · next heq =>
    subst heq
    obtain ⟨items, rfl, hcovers₂⟩ := list_eq_ok hliteral
    exact ⟨.list t items, rfl, hcovers.trans hcovers₂⟩
  · next hne =>
    obtain ⟨v, rfl, hcovers₂⟩ := scalar_eq_ok hliteral
    exact ⟨.scalar t sign hne v, rfl, hcovers.trans hcovers₂⟩

/-- A reader of filters **finds** derivations of a level: what it reads, at a place where no more
parentheses are open than may be, is the tree of a derivation that covers what has been read, and
neither the tree nor the parentheses are nested too deep. -/
def Finds (level : Level) (reader : FilterReader) : Prop :=
  ∀ {c f c'}, c.opened ≤ Filter.depthLimit → reader c = .ok (f, c') →
    ∃ d : Phrase level, d.tree = f ∧ f.depth ≤ Filter.depthLimit ∧
      c.opened + d.nesting ≤ Filter.depthLimit ∧ Covers c d.lexemes c'

variable {connective : Connective} {inner reader : FilterReader}

/-- What stands in parentheses is covered together with them. -/
theorem Covers.group {c₁ : Cursor} {ls : List Lexeme} (hopen : c.lexeme? = some .opening)
    (h : Covers c.entered ls c₁) (hclose : c₁.lexeme? = some .closing) :
    Covers c (.opening :: (ls ++ [.closing])) { c₁.next with opened := c₁.opened - 1 } := by
  refine ⟨?_, ?_⟩
  · have hinside : c.next.lexemes = ls ++ c₁.lexemes := h.lexemes_eq
    show c.lexemes = _ ++ c₁.next.lexemes
    rw [(Covers.next hopen).lexemes_eq, hinside, (Covers.next hclose).lexemes_eq]
    simp
  · show c₁.opened - 1 = c.opened
    rw [h.opened_eq, opened_entered, Nat.add_sub_cancel]

/-- Operands are found, if what stands in parentheses is. -/
theorem finds_operand (hinner : Finds (.chain .or) inner) : Finds .operand (operand inner) := by
  intro c f c' hopened h
  unfold operand at h
  split at h
  · next hopen =>
    split at h
    · cases h
    · next hne =>
      obtain ⟨⟨f, c₁⟩, hf, h⟩ := bind_eq_ok_iff.1 h
      obtain ⟨d, rfl, hdepth, hnesting, hcovers⟩ :=
        hinner (c := c.entered) (Nat.lt_of_le_of_ne hopened hne) hf
      dsimp only at h
      split at h
      · next hclose =>
        cases h
        rw [opened_entered] at hnesting
        refine ⟨.group d, rfl, hdepth, ?_, hcovers.group hopen hclose⟩
        rw [Phrase.nesting]
        omega
      · cases h
  · obtain ⟨clause, rfl, hcovers⟩ := condition_eq_ok h
    refine ⟨.clause clause, rfl, ?_, ?_, hcovers⟩
    · exact (by decide : 1 ≤ Filter.depthLimit)
    · rwa [Phrase.nesting, Nat.add_zero]

/-- At a connective there is a word for it. -/
theorem exists_keyword_of_isAt (h : c.isAt connective = true) :
    ∃ keyword : Keyword connective, c.lexeme? = some (.word keyword.word) := by
  unfold isAt at h
  split at h
  · next s hs => exact ⟨⟨s, h⟩, hs⟩
  · cases h

/-- A node that is made is not too deep. -/
theorem node_eq_ok {left right f : Filter} (h : c.node left connective right = .ok f) :
    f = .binary left connective right ∧ f.depth ≤ Filter.depthLimit := by
  unfold node at h
  split at h
  · cases h
  · next hdepth =>
    cases h
    refine ⟨rfl, ?_⟩
    rw [Filter.depth]
    omega

/-- The rest of a chain is found, if the phrases that it joins are. -/
theorem exists_tail_of_chain (hreader : Finds (.joinedBy connective) reader) {rounds : Nat}
    {left f : Filter} (hleft : left.depth ≤ Filter.depthLimit)
    (hopened : c.opened ≤ Filter.depthLimit)
    (h : chain connective reader rounds left c = .ok (f, c')) :
    ∃ t : Tail connective, t.tree left = f ∧ f.depth ≤ Filter.depthLimit ∧
      c.opened + t.nesting ≤ Filter.depthLimit ∧ Covers c t.lexemes c' := by
  have hnone : c.opened + (Tail.done : Tail connective).nesting ≤ Filter.depthLimit := by
    rwa [Tail.nesting, Nat.add_zero]
  -- the induction is on the rounds, and each round is a step of the derivation
  induction rounds generalizing left c with
  | zero =>
    cases h
    exact ⟨.done, rfl, hleft, hnone, .refl⟩
  | succ rounds ih =>
    rw [chain] at h
    split at h
    · next hat =>
      obtain ⟨⟨right, after⟩, hright, h⟩ := bind_eq_ok_iff.1 h
      obtain ⟨joined, hjoined, h⟩ := bind_eq_ok_iff.1 h
      obtain ⟨keyword, hkeyword⟩ := exists_keyword_of_isAt hat
      obtain ⟨d, rfl, -, hnesting, hcovers⟩ := hreader (c := c.next) hopened hright
      obtain ⟨rfl, hdepth⟩ := node_eq_ok hjoined
      have hafter : after.opened = c.opened := hcovers.opened_eq
      obtain ⟨t, rfl, hdepth, hnesting', hcovers'⟩ :=
        ih hdepth (by rwa [hafter]) h (by rwa [Tail.nesting, Nat.add_zero, hafter])
      refine ⟨.step keyword d t, rfl, hdepth, ?_, .cons hkeyword (hcovers.trans hcovers')⟩
      rw [opened_next] at hnesting
      rw [Tail.nesting]
      omega
    · cases h
      exact ⟨.done, rfl, hleft, hnone, .refl⟩

/-- Chains are found, if the phrases that they join are. -/
theorem finds_operands (hreader : Finds (.joinedBy connective) reader) :
    Finds (.chain connective) (operands connective reader) := by
  intro c f c' hopened h
  obtain ⟨⟨left, after⟩, hleft, h⟩ := bind_eq_ok_iff.1 h
  obtain ⟨d, rfl, hdepth, hnesting, hcovers⟩ := hreader hopened hleft
  have hafter : after.opened = c.opened := hcovers.opened_eq
  obtain ⟨t, rfl, hdepth, hnesting', hcovers'⟩ :=
    exists_tail_of_chain hreader hdepth (by rwa [hafter]) h
  refine ⟨.chain d t, rfl, hdepth, ?_, hcovers.trans hcovers'⟩
  rw [Phrase.nesting]
  omega

/-- **What is read as a filter has a derivation.** -/
theorem finds_filter (room : Nat) : Finds (.chain .or) (filter room) := by
  induction room with
  | zero =>
    intro c f c' _ h
    cases h
  | succ room ih => exact finds_operands (finds_operands (finds_operand ih))

/-! ### What has a derivation is read -/

/-- The reader of a level, given one for what stands in parentheses. -/
def readerAt (inner : FilterReader) : Level → FilterReader
  | .operand => operand inner
  | .chain .and => operands .and (operand inner)
  | .chain .or => operands .or (operands .and (operand inner))

/-- The reader of a chain joins what the reader of its phrases reads. -/
theorem readerAt_chain :
    readerAt inner (.chain connective) =
      operands connective (readerAt inner (.joinedBy connective)) := by
  cases connective <;> rfl

/-- The reader of a filter reads disjunctions. -/
theorem filter_succ (room : Nat) : filter (room + 1) = readerAt (filter room) (.chain .or) := rfl

end Cursor

namespace Grammar

/-- A derivation has lexemes. -/
theorem Phrase.lexemes_ne_nil {level : Level} : (d : Phrase level) → d.lexemes ≠ []
  | .clause c => by
    obtain ⟨t, rest, h⟩ := c.exists_head
    rw [Phrase.lexemes, h]
    exact List.cons_ne_nil _ _
  | .group _ => List.cons_ne_nil _ _
  | .chain first _ => by
    rw [Phrase.lexemes]
    exact List.append_ne_nil_of_left_ne_nil first.lexemes_ne_nil _

/-- The phrases of a chain are no deeper than the whole. -/
theorem Tail.depth_le {connective : Connective} : (t : Tail connective) → {left : Filter} →
    left.depth ≤ (t.tree left).depth
  | .done, _ => Nat.le_refl _
  | .step keyword next rest, left => by
    have hrest : (Filter.binary left connective next.tree).depth ≤ _ := rest.depth_le
    rw [Filter.depth] at hrest
    rw [Tail.tree]
    omega

end Grammar

namespace Cursor

variable {c : Cursor} {inner reader : FilterReader} {connective : Connective} {more : List Lexeme}

/-- Where a chain ends its connective does not follow. -/
theorem isAt_eq_false_of_ends (h : Ends (.chain connective) c.lexemes) :
    c.isAt connective = false := by
  refine Bool.eq_false_iff.2 fun hat => ?_
  obtain ⟨keyword, hkeyword⟩ := exists_keyword_of_isAt hat
  rw [lexeme?_eq] at hkeyword
  exact h.head?_ne keyword hkeyword

/-- A word for a connective is one. -/
theorem isAt_keyword {keyword : Keyword connective} (h : c.lexemes = .word keyword.word :: more) :
    c.isAt connective = true := by
  rw [isAt, lexeme?_eq, h]
  exact keyword.means

/-- As many tokens as lexemes are left. -/
theorem length_lexemes (c : Cursor) : c.lexemes.length = c.rest.length := by
  rw [lexemes, List.length_map]

/-- A node that is not too deep is made. -/
theorem node_eq {left right : Filter}
    (h : (Filter.binary left connective right).depth ≤ Filter.depthLimit) :
    c.node left connective right = .ok (.binary left connective right) := by
  rw [Filter.depth] at h
  rw [node, if_neg (by omega)]

/-- A chain goes on where its connective follows, if the next phrase is read, the node with it is
not too deep, and the rest of the chain is read. -/
theorem chain_gives {keyword : Keyword connective} {left right f : Filter} {rounds : Nat}
    {behind : List Lexeme} (hkeyword : c.lexemes = .word keyword.word :: more)
    (hright : Gives (reader c.next) c.next right behind)
    (hdepth : (Filter.binary left connective right).depth ≤ Filter.depthLimit)
    (hrest : ∀ after : Cursor, after.lexemes = behind → after.opened = c.opened →
      Gives (chain connective reader rounds (.binary left connective right) after) after f ls) :
    Gives (chain connective reader (rounds + 1) left c) c f ls := by
  obtain ⟨after, hafter, hbehind, hopened⟩ := hright
  obtain ⟨last, hlast, hls, hopened'⟩ := hrest after hbehind hopened
  refine ⟨last, ?_, hls, hopened'.trans hopened⟩
  rw [chain, if_pos (isAt_keyword hkeyword)]
  show (reader c.next >>= _) = _
  rw [hafter]
  show (c.node left connective right >>= _) = _
  rw [node_eq hdepth]
  exact hlast

mutual

/-- **What has a derivation is read**: a phrase is read as its tree, up to where it ends, if the
limits on parentheses and on depth are kept. -/
theorem phrase_gives {level : Level} : (d : Phrase level) → {c : Cursor} → (room : Nat) →
    {more : List Lexeme} → c.lexemes = d.lexemes ++ more → Ends level more → d.nesting ≤ room →
    c.opened + d.nesting ≤ Filter.depthLimit → d.tree.depth ≤ Filter.depthLimit →
    Gives (readerAt (filter room) level c) c d.tree more
  | .clause clause, c, room, more, h, _, _, _, _ => by
    have hhead : c.lexemes.head? ≠ some .opening := by
      obtain ⟨t, rest, hclause⟩ := clause.exists_head
      rw [h, Phrase.lexemes, hclause]
      exact fun heq => t.lexeme_ne_opening (Option.some.inj heq)
    rw [readerAt, operand_eq_condition hhead]
    exact clause_gives h
  | .group inner, c, room, more, h, _, hroom, hopened, hdepth => by
    rw [Phrase.nesting] at hroom hopened
    -- inside the parentheses there is one room less, and nothing but the closing one follows
    obtain ⟨room, rfl⟩ : ∃ r, room = r + 1 := ⟨room - 1, by omega⟩
    have hinside : c.entered.lexemes = inner.lexemes ++ .closing :: more := by
      rw [lexemes_entered, h]
      simp [Phrase.lexemes]
    refine operand_gives (by rw [h]; rfl) (by omega) ?_
    exact phrase_gives inner room hinside .closing (by omega) (by rw [opened_entered]; omega) hdepth
  | .chain first rest, c, room, more, h, hends, hroom, hopened, hdepth => by
    rw [Phrase.nesting] at hroom hopened
    rw [Phrase.lexemes, List.append_assoc] at h
    -- the first phrase ends where the others begin, which are read with a round for each token left
    obtain ⟨after, hafter, hbehind, hopened'⟩ := phrase_gives first room h
      (hends.joinedBy rest) (by omega) (by omega) (Nat.le_trans rest.depth_le hdepth)
    obtain ⟨last, hlast, hmore, hopened''⟩ := tail_gives rest room
      (Nat.le_refl after.rest.length) hbehind hends (by omega) (by omega) hdepth
    refine ⟨last, ?_, hmore, hopened''.trans hopened'⟩
    rw [readerAt_chain, operands, hafter]
    exact hlast

/-- The rest of a chain is read, whatever its first phrases were read as. -/
theorem tail_gives {k : Connective} : (t : Tail k) → {c : Cursor} → (room : Nat) → {rounds : Nat} →
    {left : Filter} → {more : List Lexeme} → c.rest.length ≤ rounds →
    c.lexemes = t.lexemes ++ more → Ends (.chain k) more → t.nesting ≤ room →
    c.opened + t.nesting ≤ Filter.depthLimit → (t.tree left).depth ≤ Filter.depthLimit →
    Gives (chain k (readerAt (filter room) (.joinedBy k)) rounds left c) c (t.tree left) more
  | .done, c, room, rounds, left, more, _, h, hends, _, _, _ =>
    ⟨c, chain_eq_ok (isAt_eq_false_of_ends (by rwa [h])), h, rfl⟩
  | .step keyword next rest, c, room, rounds, left, more, hrounds, h, hends, hroom, hopened,
      hdepth => by
    rw [Tail.nesting] at hroom hopened
    rw [Tail.lexemes, List.cons_append, List.append_assoc] at h
    rw [Tail.tree] at hdepth ⊢
    have hnode := Nat.le_trans rest.depth_le hdepth
    have hnext : next.tree.depth ≤ Filter.depthLimit := by
      rw [Filter.depth] at hnode
      omega
    -- the word for the connective takes one of the rounds
    have hlength : c.rest.length = (next.lexemes ++ (rest.lexemes ++ more)).length + 1 := by
      rw [← length_lexemes, h, List.length_cons]
    obtain ⟨rounds, rfl⟩ : ∃ r, rounds = r + 1 := ⟨rounds - 1, by omega⟩
    have hbehind : c.next.lexemes = next.lexemes ++ (rest.lexemes ++ more) := by
      rw [lexemes_next, h, List.tail_cons]
    refine chain_gives h (phrase_gives next room hbehind (hends.joinedBy rest) (by omega)
      (by rw [opened_next]; omega) hnext) hnode fun after hafter hopened' => ?_
    refine tail_gives rest room ?_ hafter hends (by omega) (by omega) hdepth
    rw [List.length_append] at hlength
    rw [← length_lexemes, hafter]
    omega

end

end Cursor

namespace Filter

/-- The filter that tokens write is the tree of their derivation. -/
theorem ofTokens_eq_ok_iff {tokens : List Token} (hne : tokens ≠ []) {f : Filter} :
    ofTokens tokens = .ok f ↔ ∃ d : Phrase (.chain .or),
      d.lexemes = tokens.map Token.lexeme ∧ d.nesting ≤ depthLimit ∧ d.tree = f ∧
        f.depth ≤ depthLimit := by
  have hempty : ¬ tokens.isEmpty = true := by rwa [List.isEmpty_iff]
  rw [ofTokens, if_neg hempty]
  constructor
  · intro h
    obtain ⟨⟨f, c⟩, hf, h⟩ := bind_eq_ok_iff.1 h
    dsimp only at h
    split at h
    · next hrest =>
      -- nothing is left, so the derivation that is found covers all tokens
      cases h
      obtain ⟨d, rfl, hdepth, hnesting, hcovers⟩ :=
        Cursor.finds_filter (depthLimit + 1) (c := .start tokens) (Nat.zero_le _) hf
      have hlexemes : tokens.map Token.lexeme = d.lexemes ++ c.lexemes := hcovers.lexemes_eq
      rw [Cursor.rest_eq_nil_iff.1 hrest, List.append_nil] at hlexemes
      have hnesting : 0 + d.nesting ≤ depthLimit := hnesting
      exact ⟨d, hlexemes.symm, by rwa [Nat.zero_add] at hnesting, rfl, hdepth⟩
    · cases h
  · rintro ⟨d, hlexemes, hnesting, rfl, hdepth⟩
    have hstart : (Cursor.start tokens).lexemes = d.lexemes ++ [] := by
      rw [List.append_nil, hlexemes]
      rfl
    have hopened : (Cursor.start tokens).opened + d.nesting ≤ depthLimit := by
      show 0 + d.nesting ≤ depthLimit
      rwa [Nat.zero_add]
    obtain ⟨c, hc, hnil, -⟩ := Cursor.phrase_gives d depthLimit hstart .nil hnesting hopened hdepth
    have hrest : c.rest = [] := Cursor.rest_eq_nil_iff.2 hnil
    rw [Cursor.filter_succ, hc]
    dsimp only [bind, Except.bind]
    rw [hrest]
    rfl

/-- **What a text is read as**: the tree of the derivation of its lexemes in the grammar, if no more
than sixty-four parentheses are open at once and the tree is at most sixty-four levels deep; without
lexemes, the empty filter. Lexemes have one derivation at most. -/
theorem read_eq_ok_iff_derivation (text : String) (f : Filter) :
    (read text = .ok f ↔ ∃ tokens, Token.scan 0 text.toList = .ok tokens ∧
      (tokens = [] ∧ f = .empty ∨
        ∃ d : Phrase (.chain .or), d.lexemes = tokens.map Token.lexeme ∧ d.nesting ≤ 64 ∧
          d.tree = f ∧ f.depth ≤ 64)) ∧
    ∀ d d' : Phrase (.chain .or), d.lexemes = d'.lexemes → d = d' := by
  refine ⟨?_, fun d d' h => (d.unique d' .nil .nil (by rw [h])).1⟩
  rw [read, bind_eq_ok_iff]
  refine exists_congr fun tokens => and_congr_right fun _ => ?_
  by_cases hne : tokens = []
  · subst hne
    constructor
    · intro h
      cases h
      exact .inl ⟨rfl, rfl⟩
    · rintro (⟨-, rfl⟩ | ⟨d, hlexemes, -⟩)
      · rfl
      · exact absurd hlexemes d.lexemes_ne_nil
  · rw [ofTokens_eq_ok_iff hne]
    exact ⟨.inr, fun h => h.resolve_left fun h => hne h.1⟩

end Filter

end ObjectMapping
