import ObjectMapping.Proofs.Filter.Reading

/-! # Reading the text of a filter

The text of a filter leads back to the filter, if the filter is one that text can write
(`Filter.Full`) and not too deep; any other filter has a text that is refused. So no text of a
filter is ever read as a different filter.

The proof follows the tree. What comes of reading the lexemes of a filter is one of two things
(`Verdict`): the filter itself, which then is full and not too deep, or a refusal, and then the
filter is not full or there was no room for its depth. -/

namespace ObjectMapping

namespace Filter

/-- A filter that is **full**: no side of a node is empty, and every condition fits. -/
def Full : Filter → Prop
  | .empty => False
  | .condition d => d.Fits
  | .binary left _ right => left.Full ∧ right.Full

end Filter

/-- What comes of reading the lexemes of a filter at a place where lexemes follow. -/
inductive Verdict (result : Except FilterError (Filter × Cursor)) (c : Cursor) (f : Filter)
    (more : List Lexeme) (room : Prop) : Prop where
  /-- The filter itself, which is full and not too deep. -/
  | read : Gives result c f more → f.Full → f.depth ≤ Filter.depthLimit → Verdict result c f more room
  /-- A refusal of a filter that is not full or for which there is no room. -/
  | refused : Refuses result → ¬ (f.Full ∧ room) → Verdict result c f more room

/-- Lexemes behind a filter: none, or those from a closing parenthesis on. -/
inductive Follows : List Lexeme → Prop where
  /-- The end of the text. -/
  | nil : Follows []
  /-- A closing parenthesis. -/
  | closing {more : List Lexeme} : Follows (.closing :: more)

/-- Lexemes at which no operand begins. -/
inductive NoOperand : List Lexeme → Prop where
  /-- The end of the text, or a closing parenthesis. -/
  | follows {lexemes : List Lexeme} : Follows lexemes → NoOperand lexemes
  /-- A word without a comparison behind it. -/
  | word {w : String} {more : List Lexeme} : (∀ sign, more.head? ≠ some (.sign sign)) →
      NoOperand (.word w :: more)

namespace Cursor

variable {c : Cursor} {more : List Lexeme} {inner reader : FilterReader}

/-- Where no operand begins, none is read. -/
theorem operand_refuses_of_noOperand (h : NoOperand c.lexemes) : Refuses (operand inner c) := by
  cases hl : c.lexemes with
  | nil =>
    rw [operand_eq_condition (by simp [hl])]
    exact condition_refuses_of_no_text (by rw [text?, lexeme?_eq, hl]; rfl)
  | cons l ls =>
    rw [hl] at h
    cases h with
    | follows h =>
      cases h
      rw [operand_eq_condition (by simp [hl])]
      exact condition_refuses_of_no_text (by rw [text?, lexeme?_eq, hl]; rfl)
    | word h =>
      rw [operand_eq_condition (by simp [hl])]
      exact condition_refuses_of_no_sign (by simpa [hl] using h)

/-- Behind a filter there is no connective. -/
theorem isAt_of_follows {connective : Connective} (h : Follows c.lexemes) :
    c.isAt connective = false := by
  apply isAt_eq_false
  intro s hs
  cases hl : c.lexemes with
  | nil => simp [hl] at hs
  | cons l ls =>
    rw [hl] at h hs
    cases h
    simp at hs

/-- What is written for a side of a node does not begin with a comparison. -/
theorem operandLexemes_head_ne_sign (f : Filter) (h : Follows more) (sign : Comparison) :
    (f.operandLexemes f.lexemes ++ more).head? ≠ some (.sign sign) := by
  cases f with
  | empty =>
    cases h <;> simp [Filter.operandLexemes, Filter.lexemes]
  | condition d => simp [Filter.operandLexemes, Filter.lexemes, Condition.lexemes]
  | binary left connective right => simp [Filter.operandLexemes]

end Cursor

/-! ### Verdicts -/

namespace Verdict

open Cursor

variable {c : Cursor} {more : List Lexeme} {inner reader : FilterReader}

/-- An operand that stands alone is a chain. -/
theorem alone {f : Filter} {room : Prop} {connective : Connective}
    (h : Verdict (reader c) c f more room)
    (hmore : ∀ c' : Cursor, c'.lexemes = more → c'.isAt connective = false) :
    Verdict (operands connective reader c) c f more room := by
  cases h with
  | read hgives hfull hdepth =>
    obtain ⟨c', hc', hlexemes, hopened⟩ := hgives
    exact .read ⟨c', operands_eq_ok hc' (hmore c' hlexemes), hlexemes, hopened⟩ hfull hdepth
  | refused hrefuses hroom => exact .refused (operands_refuses hrefuses) hroom

/-- Two operands with a connective between them are a node. -/
theorem node {left right : Filter} {between : List Lexeme} {connective : Connective}
    {room roomLeft roomRight : Prop}
    (hleft : Verdict (reader c) c left (.word connective.text :: between) roomLeft)
    (hright : ∀ c' : Cursor, c'.lexemes = between → c'.opened = c.opened →
      Verdict (reader c') c' right more roomRight)
    (hmore : ∀ c' : Cursor, c'.lexemes = more → c'.isAt connective = false)
    (hroom : room → roomLeft ∧ roomRight ∧
      max left.depth right.depth < Filter.depthLimit) :
    Verdict (operands connective reader c) c (.binary left connective right) more room := by
  cases hleft with
  | refused hrefuses hno =>
    exact .refused (operands_refuses hrefuses) fun ⟨hfull, h⟩ => hno ⟨hfull.1, (hroom h).1⟩
  | read hgives hfullLeft _ =>
    obtain ⟨after, hafter, hlexemes, hopened⟩ := hgives
    have hat : after.isAt connective = true := by rw [isAt_word hlexemes]; simp
    obtain ⟨rounds, heq⟩ := operands_eq_node hafter hat
    rw [heq]
    -- the right side is read behind the connective, and only then is the depth of the node known
    cases hright after.next (by rw [lexemes_next, hlexemes, List.tail_cons]) hopened with
    | refused hrefuses hno =>
      exact .refused (hrefuses.bind _) fun ⟨hfull, h⟩ => hno ⟨hfull.2, (hroom h).2.1⟩
    | read hgives hfullRight _ =>
      obtain ⟨last, hlast, hlastLexemes, hlastOpened⟩ := hgives
      rw [hlast]
      show Verdict (after.node left connective right >>= _) _ _ _ _
      unfold Cursor.node
      split
      · next hdeep =>
        exact .refused ⟨_, rfl⟩ fun ⟨_, h⟩ => absurd (hroom h).2.2 (Nat.not_lt.2 hdeep)
      · next hdeep =>
        refine .read ⟨last, ?_, hlastLexemes, ?_⟩ ⟨hfullLeft, hfullRight⟩ ?_
        · exact chain_eq_ok (hmore last hlastLexemes)
        · rw [hlastOpened, opened_next, hopened]
        · rw [Filter.depth]
          omega

/-- A condition is read back exactly when it fits. -/
theorem condition {d : Condition} {room : Prop} (h : c.lexemes = d.lexemes ++ more) :
    Verdict (Cursor.operand inner c) c (.condition d) more room := by
  rw [operand_eq_condition (by simp [h, Condition.lexemes])]
  by_cases hd : d.Fits
  · refine .read (condition_gives h hd) hd ?_
    show 1 ≤ 64
    omega
  · exact .refused (condition_refuses h hd) fun hfull => hd hfull.1

/-- The room that reading a filter takes: as many parentheses as it is deep, all of which can be
opened and for each of which there is a reader. -/
def Room (f : Filter) (c : Cursor) (readers : Nat) : Prop :=
  f.depth + c.opened ≤ Filter.depthLimit ∧ Filter.depthLimit ≤ readers + c.opened

/-- A side of a node, given what comes of reading the filter that stands there. -/
theorem operand {side : Filter} (readers : Nat)
    (hside : side ≠ .empty → ∀ (readers : Nat) (c : Cursor) (more : List Lexeme), Follows more →
      c.lexemes = side.lexemes ++ more →
      Verdict (filter (readers + 1) c) c side more (Room side c readers))
    (hempty : side = .empty → NoOperand more)
    (h : c.lexemes = side.operandLexemes side.lexemes ++ more) :
    Verdict (Cursor.operand (filter readers) c) c side more
      (side.depth + 1 + c.opened ≤ Filter.depthLimit ∧
        Filter.depthLimit ≤ readers + c.opened) := by
  cases side with
  | empty =>
    have h : c.lexemes = more := h
    refine .refused (operand_refuses_of_noOperand ?_) fun hfull => hfull.1
    rw [h]
    exact hempty rfl
  | condition d => exact condition h
  | binary left connective right =>
    have hhead : c.lexemes.head? = some .opening := by rw [h]; rfl
    have hinner : c.entered.lexemes =
        (Filter.binary left connective right).lexemes ++ .closing :: more := by
      rw [lexemes_entered, h]
      simp [Filter.operandLexemes]
    -- with no reader left, the depth does not fit between the parentheses and the limit
    cases readers with
    | zero =>
      refine .refused (operand_refuses hhead fun _ => .fail _ _) fun ⟨_, hroom⟩ => ?_
      omega
    | succ readers =>
      by_cases hopen : c.opened = Filter.depthLimit
      · refine .refused (operand_refuses hhead fun h => absurd hopen h) fun ⟨_, hroom⟩ => ?_
        omega
      · cases hside (by simp) readers c.entered _ .closing hinner with
        | read hgives hfull hdepth => exact .read (operand_gives hhead hopen hgives) hfull hdepth
        | refused hrefuses hno =>
          refine .refused (operand_refuses hhead fun _ => hrefuses) fun ⟨hfull, hroom⟩ => ?_
          refine hno ⟨hfull, ?_, ?_⟩
          · rw [opened_entered]
            omega
          · rw [opened_entered]
            omega

/-- **What comes of reading the lexemes of a filter.** -/
theorem filter (f : Filter) (hf : f ≠ .empty) (readers : Nat) (c : Cursor) (more : List Lexeme)
    (hmore : Follows more) (h : c.lexemes = f.lexemes ++ more) :
    Verdict (Cursor.filter (readers + 1) c) c f more (Room f c readers) := by
  -- the induction is on the filter, and a side that is a node takes one reader and one parenthesis
  induction f generalizing readers c more with
  | empty => exact absurd rfl hf
  | condition d =>
    have hends {k : Connective} (c' : Cursor) (h' : c'.lexemes = more) : c'.isAt k = false :=
      isAt_of_follows (h' ▸ hmore)
    exact ((condition h).alone hends).alone hends
  | binary left connective right ihl ihr =>
    have hends {k : Connective} (c' : Cursor) (h' : c'.lexemes = more) : c'.isAt k = false :=
      isAt_of_follows (h' ▸ hmore)
    rw [Filter.lexemes, List.append_assoc, List.cons_append] at h
    have hleft := operand (c := c) readers (fun hne r c more => ihl hne r c more)
      (fun _ => .word (operandLexemes_head_ne_sign right hmore)) h
    have hright (c' : Cursor) (h' : c'.lexemes = right.operandLexemes right.lexemes ++ more)
        (hopened : c'.opened = c.opened) :=
      hopened ▸ operand readers (fun hne r c more => ihr hne r c more)
        (fun _ => .follows hmore) h'
    have hroom (hroom : Room (.binary left connective right) c readers) :
        (left.depth + 1 + c.opened ≤ Filter.depthLimit ∧
            Filter.depthLimit ≤ readers + c.opened) ∧
          (right.depth + 1 + c.opened ≤ Filter.depthLimit ∧
            Filter.depthLimit ≤ readers + c.opened) ∧
          max left.depth right.depth < Filter.depthLimit := by
      unfold Room Filter.depth at hroom
      omega
    -- operands are joined by `AND` among themselves, and by `OR` as conjunctions of one operand
    cases connective with
    | and => exact (node hleft hright hends hroom).alone hends
    | or =>
      have hand (c' : Cursor) (h' : c'.lexemes = .word Connective.or.text ::
          (right.operandLexemes right.lexemes ++ more)) : c'.isAt .and = false := isAt_word h'
      exact node (hleft.alone hand) (fun c' h' ho => (hright c' h' ho).alone hends) hends hroom

end Verdict

namespace Filter

/-- What comes of reading the tokens of the text of a filter that is not empty. -/
theorem ofTokens_of_lexemes {f : Filter} (hf : f ≠ .empty) {tokens : List Token}
    (h : tokens.map Token.lexeme = f.lexemes) :
    (ofTokens tokens = .ok f ∧ f.Full ∧ f.depth ≤ depthLimit) ∨
      (Refuses (ofTokens tokens) ∧ ¬ (f.Full ∧ f.depth ≤ depthLimit)) := by
  have hne : tokens.isEmpty = false := by
    cases tokens with
    | cons t rest => rfl
    | nil => cases f with
      | empty => exact absurd rfl hf
      | condition d => simp [lexemes, Condition.lexemes] at h
      | binary left connective right => simp [lexemes] at h
  have hverdict := Verdict.filter f hf depthLimit (Cursor.start tokens) [] .nil
    (by rw [List.append_nil, ← h]; rfl)
  rw [ofTokens, hne, if_neg (by simp)]
  cases hverdict with
  | read hgives hfull hdepth =>
    obtain ⟨c', hc', hlexemes, -⟩ := hgives
    refine .inl ⟨?_, hfull, hdepth⟩
    rw [hc']
    simp only [bind, Except.bind, Cursor.rest_eq_nil_iff.2 hlexemes]
    rfl
  | refused hrefuses hno =>
    exact .inr ⟨hrefuses.bind _, fun h => hno ⟨h.1, h.2, Nat.le_refl _⟩⟩

/-- The filters that text can write: the empty one, and those that are full and not too deep. -/
def Writable (f : Filter) : Prop := f = .empty ∨ f.Full ∧ f.depth ≤ depthLimit

/-- The text of a filter is read as the filter itself, which then can be written, or refused. -/
theorem read_text (f : Filter) :
    (read f.text = .ok f ∧ f.Writable) ∨ (Refuses (read f.text) ∧ ¬ f.Writable) := by
  obtain ⟨tokens, hscan, hlexemes⟩ := f.scan_text
  have hread : read f.text = ofTokens tokens := by
    rw [read, hscan]
    rfl
  rw [hread]
  by_cases hf : f = .empty
  · subst hf
    rw [List.map_eq_nil_iff.1 hlexemes]
    exact .inl ⟨rfl, .inl rfl⟩
  · rcases ofTokens_of_lexemes hf hlexemes with ⟨hok, hgood⟩ | ⟨hrefuses, hbad⟩
    · exact .inl ⟨hok, .inr hgood⟩
    · exact .inr ⟨hrefuses, fun h => hbad (h.resolve_left hf)⟩

/-- **What the text of a filter is read as**: nothing but the filter itself, and that exactly when
it is empty, or is full and at most sixty-four levels deep. The text of any other filter is
refused. -/
theorem read_text_eq_ok_iff (f : Filter) :
    (∀ g, read f.text = .ok g ↔ g = f ∧ (f = .empty ∨ f.Full ∧ f.depth ≤ 64)) ∧
      ((∃ e, read f.text = .error e) ↔ ¬ (f = .empty ∨ f.Full ∧ f.depth ≤ 64)) := by
  rcases f.read_text with ⟨hread, hf⟩ | ⟨⟨e, hread⟩, hf⟩
  · refine ⟨fun g => ?_, ?_⟩
    · rw [hread, Except.ok.injEq, eq_comm]
      exact ⟨fun hg => ⟨hg, hf⟩, fun hg => hg.1⟩
    · rw [hread]
      exact ⟨fun ⟨_, he⟩ => absurd he (by simp), fun hno => absurd hf hno⟩
  · refine ⟨fun g => ?_, ?_⟩
    · rw [hread]
      exact ⟨fun hg => absurd hg (by simp), fun hg => absurd hg.2 hf⟩
    · exact ⟨fun _ => hf, fun _ => ⟨e, hread⟩⟩

end Filter

end ObjectMapping
