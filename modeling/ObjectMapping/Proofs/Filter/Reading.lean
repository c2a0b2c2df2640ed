import ObjectMapping.Filter.Reader
import ObjectMapping.Proofs.Filter.Grammar
import ObjectMapping.Proofs.Filter.Lexemes

/-! # Facts about readers of filters

What a reader does at a place in the tokens depends on the lexemes from there on
(`Cursor.lexemes`). For each reader this file says what it gives and when it refuses; other files
cite these facts and do not open the readers again.

* **`Gives`, `Refuses`** — what comes of a reading.
* **`Literal.standsFor_ofWord`** — a bare word is read as the literal for which it stands.
* **`Cursor.condition_gives`, `Cursor.condition_refuses`** — a written condition is read back
  exactly when its comparison and its literal fit. -/

namespace ObjectMapping

/-! ### Places and lexemes -/

namespace Cursor

/-- The lexemes from a place on. -/
def lexemes (c : Cursor) : List Lexeme := c.rest.map Token.lexeme

/-- The lexeme at a place is the first one from there on. -/
theorem lexeme?_eq (c : Cursor) : c.lexeme? = c.lexemes.head? := by
  rw [lexeme?, lexemes, List.head?_map]

/-- The lexemes after the token here. -/
@[simp] theorem lexemes_next (c : Cursor) : c.next.lexemes = c.lexemes.tail := by
  simp [lexemes, next]

/-- Going on opens no parenthesis. -/
@[simp] theorem opened_next (c : Cursor) : c.next.opened = c.opened := rfl

/-- Nothing is left where there are no lexemes. -/
theorem rest_eq_nil_iff {c : Cursor} : c.rest = [] ↔ c.lexemes = [] := by
  simp [lexemes]

/-- A term is a text. -/
theorem text?_term {c : Cursor} {t : Grammar.Term} {more : List Lexeme}
    (h : c.lexemes = t.lexeme :: more) : c.text? = some t.text := by
  rw [text?, lexeme?_eq, h]
  cases t <;> rfl

end Cursor

/-! ### What comes of a reading -/

/-- A reading from a place **gives** a value and leaves lexemes; parentheses that were opened on the
way are closed again. -/
def Gives {α : Type} (result : Except FilterError (α × Cursor)) (c : Cursor) (value : α)
    (more : List Lexeme) : Prop :=
  ∃ c', result = .ok (value, c') ∧ c'.lexemes = more ∧ c'.opened = c.opened

/-- A reading ends in a **refusal**. -/
def Refuses {α : Type} (result : Except FilterError α) : Prop := ∃ e, result = .error e

/-- A failure is a refusal. -/
theorem Refuses.fail {α : Type} (c : Cursor) (fault : FilterFault) :
    Refuses (c.fail fault : Except FilterError (α × Cursor)) := ⟨_, rfl⟩

/-- What follows a refusal does not matter. -/
theorem Refuses.bind {α β : Type} {result : Except FilterError α} (h : Refuses result)
    (f : α → Except FilterError β) : Refuses (result >>= f) := by
  obtain ⟨e, rfl⟩ := h
  exact ⟨e, rfl⟩

/-- A condition whose comparison and literal **fit**: `IN` goes with lists and with nothing
else. -/
def Condition.Fits (d : Condition) : Prop :=
  d.comparison = .oneOf ↔ ∃ items, d.literal = .list items

/-! ### Literals -/

namespace Literal

/-- Digits are read as the number that they write. -/
theorem digits?_toDigits (n : Nat) : digits? (Nat.toDigits 10 n) = some n := by
  have hall : (Nat.toDigits 10 n).all Char.isDigit = true :=
    List.all_eq_true.2 fun c hc => Nat.isDigit_of_mem_toDigits (by decide) (by decide) hc
  rw [digits?, if_pos ⟨Nat.toDigits_ne_nil, hall⟩, ← Nat.ofDigitChars_eq_foldl,
    Nat.ofDigitChars_ten_toDigits]

/-- A written integer is read back. -/
theorem integer?_toString (z : Int) : integer? (toString z).toList = some z := by
  rw [Int.toString_eq_repr, Int.repr_eq_if]
  split
  · next hz =>
    rw [Nat.toList_repr]
    have hdigit : ∀ c ∈ Nat.toDigits 10 z.toNat, c.isDigit = true :=
      fun c hc => Nat.isDigit_of_mem_toDigits (by decide) (by decide) hc
    -- digits begin with neither sign, so they are read as they stand
    unfold integer?
    split
    · next heq =>
      rw [heq] at hdigit
      exact absurd (hdigit '+' (by simp)) (by decide)
    · next heq =>
      rw [heq] at hdigit
      exact absurd (hdigit '-' (by simp)) (by decide)
    · rw [digits?_toDigits, Option.map_some]
      simp [Int.toNat_of_nonneg hz]
  · next hz =>
    have hminus : "-".toList = ['-'] := rfl
    rw [String.toList_append, Nat.toList_repr, hminus, List.singleton_append, integer?,
      digits?_toDigits]
    show some (-((-z).toNat : Int)) = some z
    congr 1
    omega

/-- Digits are read as the number that they write, and nothing else is. -/
theorem digits?_eq_some_iff {cs : List Char} {n : Nat} :
    digits? cs = some n ↔ WritesDigits cs n := by
  unfold digits?
  split
  · next h =>
    rw [Option.some.injEq, ← Nat.ofDigitChars_eq_foldl, eq_comm]
    exact ⟨fun hn => ⟨h.1, List.all_eq_true.1 h.2, hn⟩, fun hn => hn.value⟩
  · next h =>
    refine ⟨fun hn => absurd hn (by simp), fun hn => ?_⟩
    exact absurd ⟨hn.ne_nil, List.all_eq_true.2 hn.isDigit⟩ h

/-- Characters are read as the integer that they write, and no others are. -/
theorem integer?_eq_some_iff {cs : List Char} {z : Int} :
    integer? cs = some z ↔ WritesInteger cs z := by
  constructor
  · intro h
    unfold integer? at h
    split at h
    · obtain ⟨n, hn, rfl⟩ := Option.map_eq_some_iff.1 h
      exact .plus (digits?_eq_some_iff.1 hn)
    · obtain ⟨z, hz, rfl⟩ := Option.map_eq_some_iff.1 h
      obtain ⟨n, hn, hz⟩ := Option.bind_eq_some_iff.1 hz
      cases hz
      exact .minus (digits?_eq_some_iff.1 hn)
    · obtain ⟨n, hn, rfl⟩ := Option.map_eq_some_iff.1 h
      exact .plain (digits?_eq_some_iff.1 hn)
  · intro h
    cases h with
    | plus h => rw [integer?, digits?_eq_some_iff.2 h]; rfl
    | minus h => rw [integer?, digits?_eq_some_iff.2 h]; rfl
    | plain h =>
      -- digits begin with neither sign, so they are read as they stand
      unfold integer?
      split
      · exact absurd h.head_isDigit (by decide)
      · exact absurd h.head_isDigit (by decide)
      · rw [digits?_eq_some_iff.2 h]; rfl

/-- A word is read as the number of 64 bits that it writes, and no other word is read as a
number. -/
theorem number?_eq_some_iff {s : String} {n : Int64} :
    number? s = some n ↔ WritesInteger s.toList n.toInt := by
  have hlow := n.le_toInt
  have hhigh := n.toInt_lt
  unfold number?
  rw [Option.bind_eq_some_iff]
  constructor
  · rintro ⟨z, hz, h⟩
    split at h
    · next hrange =>
      rw [Option.some.injEq] at h
      have htoInt : (Int64.ofInt z).toInt = z :=
        Int64.toInt_ofInt_of_le (by omega) (by omega)
      rw [← h, htoInt]
      exact integer?_eq_some_iff.1 hz
    · cases h
  · intro h
    refine ⟨n.toInt, integer?_eq_some_iff.2 h, ?_⟩
    rw [if_pos (by omega), Int64.ofInt_toInt]

/-- **A bare word is read as the literal for which it stands.** -/
theorem standsFor_ofWord (s : String) : StandsFor s (ofWord s) := by
  unfold ofWord
  cases hnumber : number? s with
  | some n => exact .number n (number?_eq_some_iff.1 hnumber)
  | none =>
    have hno : ∀ n : Int64, ¬ WritesInteger s.toList n.toInt := by
      intro n hn
      rw [number?_eq_some_iff.2 hn] at hnumber
      cases hnumber
    have htrue : toString true = "true" := rfl
    have hfalse : toString false = "false" := rfl
    by_cases ht : Text.eqIgnoringCase s "true" = true
    · rw [if_pos ht]
      exact .bool true hno (htrue ▸ ht)
    · rw [if_neg ht]
      by_cases hf : Text.eqIgnoringCase s "false" = true
      · rw [if_pos hf]
        exact .bool false hno (hfalse ▸ hf)
      · rw [if_neg hf]
        refine .text hno fun b => ?_
        cases b
        · rw [hfalse]
          exact Bool.eq_false_iff.2 hf
        · rw [htrue]
          exact Bool.eq_false_iff.2 ht

/-- A written number of 64 bits is read back as a literal. -/
theorem ofWord_number (n : Int64) : ofWord (toString n.toInt) = .number n := by
  have hrange : -0x8000000000000000 ≤ n.toInt ∧ n.toInt ≤ 0x7FFFFFFFFFFFFFFF := by
    have hlow := n.le_toInt
    have hhigh := n.toInt_lt
    omega
  rw [ofWord, number?, integer?_toString, Option.bind_some, if_pos hrange, Int64.ofInt_toInt]

/-- A written truth value is read back as a literal. -/
theorem ofWord_bool (b : Bool) : ofWord (toString b) = .bool b := by
  cases b <;> decide

end Literal

namespace Cursor

variable {c : Cursor} {more : List Lexeme}

/-- A scalar is read as the literal for which it stands. -/
theorem scalar_gives {v : Grammar.Scalar} (h : c.lexemes = v.term.lexeme :: more) :
    Gives c.scalar c v.literal more := by
  refine ⟨c.next, ?_, by rw [lexemes_next, h, List.tail_cons], rfl⟩
  obtain ⟨t, l, hl⟩ := v
  rw [scalar, lexeme?_eq, h]
  cases t with
  | quoted s =>
    obtain rfl : l = .text s := hl
    rfl
  | bare s =>
    obtain rfl : l = .ofWord s := StandsFor.unique hl (Literal.standsFor_ofWord s)
    rfl

/-- A list is refused where another literal is due. -/
theorem scalar_refuses {items : List String}
    (h : c.lexemes = (Literal.list items).lexemes ++ more) : Refuses c.scalar := by
  rw [scalar, lexeme?_eq, h]
  exact .fail _ _

/-- The items of a list are read up to the closing parenthesis. -/
theorem items_gives {t : Grammar.Term} {rest : List Grammar.Term}
    (h : c.lexemes = Grammar.itemLexemes (t :: rest) ++ .closing :: more) :
    Gives c.items c ((t :: rest).map Grammar.Term.text) more := by
  -- the induction is on the items, each of which is read behind the comma of the one before
  induction rest generalizing t c with
  | nil =>
    have h : c.lexemes = t.lexeme :: .closing :: more := h
    refine ⟨c.next.next, ?_, by simp [h], rfl⟩
    rw [items]
    split
    · next hs => simp [text?_term h] at hs
    · next s hs =>
      rw [text?_term h] at hs
      cases hs
      simp [lexeme?_eq, h]
  | cons u rest ih =>
    have h : c.lexemes = t.lexeme :: .comma ::
      (Grammar.itemLexemes (u :: rest) ++ .closing :: more) := h
    obtain ⟨c', hc', hmore, hopened⟩ := ih (c := c.next.next) (t := u) (by simp [h])
    refine ⟨c', ?_, hmore, hopened⟩
    rw [items]
    split
    · next hs => simp [text?_term h] at hs
    · next s hs =>
      rw [text?_term h] at hs
      cases hs
      simp only [lexeme?_eq, lexemes_next, h, List.tail_cons, List.head?_cons, hc']
      rfl

/-- A list in parentheses is read. -/
theorem list_gives {items : List Grammar.Term}
    (h : c.lexemes = .opening :: (Grammar.itemLexemes items ++ .closing :: more)) :
    Gives c.list c (.list (items.map Grammar.Term.text)) more := by
  cases items with
  | nil =>
    have h : c.lexemes = .opening :: .closing :: more := h
    refine ⟨c.next.next, ?_, by simp [h], rfl⟩
    rw [list, lexeme?_eq, lexeme?_eq, lexemes_next, h]
    rfl
  | cons t rest =>
    obtain ⟨c', hc', hmore, hopened⟩ := items_gives (c := c.next) (by rw [lexemes_next, h]; rfl)
    refine ⟨c', ?_, hmore, hopened⟩
    have hhead : c.next.lexeme? = some t.lexeme := by
      rw [lexeme?_eq, lexemes_next, h]
      cases rest <;> rfl
    have hclosing := t.lexeme_ne_closing
    rw [list, lexeme?_eq, h]
    simp only [List.head?_cons, hhead]
    split
    · next heq => exact absurd (Option.some.inj heq) hclosing
    · rw [hc']
      rfl

/-- A literal that is no list is refused where a list is due. -/
theorem list_refuses {l : Literal} (h : c.lexemes = l.lexemes ++ more)
    (hl : ∀ items, l ≠ .list items) : Refuses c.list := by
  rw [list, lexeme?_eq, h]
  cases l with
  | list items => exact absurd rfl (hl items)
  | _ => exact .fail _ _

/-! ### Conditions -/

/-- A condition begins with its field and its comparison. -/
theorem condition_eq {t : Grammar.Term} {sign : Comparison}
    (h : c.lexemes = t.lexeme :: .sign sign :: more) :
    c.condition = (c.next.next.literal sign >>= fun (literal, c') =>
      .ok (.compare t.text sign literal, c')) := by
  have hfield : c.field = .ok (t.text, c.next) := by rw [field, text?_term h]
  have hsign : c.next.comparison = .ok (sign, c.next.next) := by
    rw [comparison, lexeme?_eq, lexemes_next, h]
    rfl
  rw [condition, hfield]
  show (c.next.comparison >>= _) = _
  rw [hsign]
  rfl

/-- A derived condition is read. -/
theorem clause_gives {clause : Grammar.Clause} (h : c.lexemes = clause.lexemes ++ more) :
    Gives c.condition c (.condition clause.condition) more := by
  cases clause with
  | scalar name comparison hscalar value =>
    have h : c.lexemes = name.lexeme :: .sign comparison :: value.term.lexeme :: more := h
    obtain ⟨c', hc', hmore, hopened⟩ := scalar_gives (c := c.next.next) (v := value)
      (by rw [lexemes_next, lexemes_next, h]; rfl)
    exact ⟨c', by rw [condition_eq h, literal, if_neg hscalar, hc']; rfl, hmore, hopened⟩
  | list name items =>
    have h : c.lexemes = name.lexeme :: .sign .oneOf :: .opening ::
        (Grammar.itemLexemes items ++ .closing :: more) := by
      rw [h]
      simp [Grammar.Clause.lexemes]
    obtain ⟨c', hc', hmore, hopened⟩ := list_gives (c := c.next.next)
      (by rw [lexemes_next, lexemes_next, h]; rfl)
    exact ⟨c', by rw [condition_eq h, literal, if_pos rfl, hc']; rfl, hmore, hopened⟩

/-- A condition that fits is derived from its written lexemes. -/
theorem exists_clause {d : Condition} (hd : d.Fits) :
    ∃ clause : Grammar.Clause, clause.lexemes = d.lexemes ∧ clause.condition = d := by
  obtain ⟨field, comparison, literal⟩ := d
  by_cases hsign : comparison = .oneOf
  · obtain ⟨items, rfl⟩ := hd.1 hsign
    subst hsign
    refine ⟨.list (.quoted field) (items.map .quoted), ?_, ?_⟩
    · simp only [Grammar.Clause.lexemes, Condition.lexemes, Literal.lexemes, Grammar.itemLexemes,
        List.map_map]
      rfl
    · simp only [Grammar.Clause.condition, List.map_map]
      congr 2
      exact List.map_id items
  · have scalar : ∀ (t : Grammar.Term) (ht : t.StandsFor literal), literal.lexemes = [t.lexeme] →
        ∃ clause : Grammar.Clause, clause.lexemes = Condition.lexemes ⟨field, comparison, literal⟩ ∧
          clause.condition = ⟨field, comparison, literal⟩ := by
      intro t ht hlexemes
      refine ⟨.scalar (.quoted field) comparison hsign ⟨t, literal, ht⟩, ?_, rfl⟩
      rw [Condition.lexemes, hlexemes]
      rfl
    cases literal with
    | text s => exact scalar (.quoted s) rfl rfl
    | number n =>
      exact scalar (.bare (toString n.toInt))
        (Literal.ofWord_number n ▸ Literal.standsFor_ofWord _) rfl
    | bool b =>
      exact scalar (.bare (toString b)) (Literal.ofWord_bool b ▸ Literal.standsFor_ofWord _) rfl
    | list items => exact absurd (hd.2 ⟨items, rfl⟩) hsign

/-- A condition that fits is read back. -/
theorem condition_gives {d : Condition} (h : c.lexemes = d.lexemes ++ more) (hd : d.Fits) :
    Gives c.condition c (.condition d) more := by
  obtain ⟨clause, hlexemes, rfl⟩ := exists_clause hd
  exact clause_gives (by rw [h, hlexemes])

/-- A condition that does not fit is refused. -/
theorem condition_refuses {d : Condition} (h : c.lexemes = d.lexemes ++ more) (hd : ¬ d.Fits) :
    Refuses c.condition := by
  have hrest : c.next.next.lexemes = d.literal.lexemes ++ more := by
    rw [lexemes_next, lexemes_next, h]
    rfl
  rw [condition_eq (t := .quoted d.field) h]
  refine Refuses.bind ?_ _
  unfold literal
  split
  · next hsign =>
    exact list_refuses hrest fun items hitems => hd ⟨fun _ => ⟨items, hitems⟩, fun _ => hsign⟩
  · next hsign =>
    cases hl : d.literal with
    | list items =>
      rw [hl] at hrest
      exact scalar_refuses hrest
    | _ => exact absurd ⟨fun h => absurd h hsign, fun ⟨_, hi⟩ => by simp [hl] at hi⟩ hd

/-- Without a text in front there is no condition. -/
theorem condition_refuses_of_no_text (h : c.text? = none) : Refuses c.condition := by
  rw [condition, field, h]
  exact (Refuses.fail _ _).bind _

/-- A text without a comparison behind it begins no condition. -/
theorem condition_refuses_of_no_sign (h : ∀ sign, c.lexemes.tail.head? ≠ some (.sign sign)) :
    Refuses c.condition := by
  rw [condition, field]
  cases c.text? with
  | none => exact (Refuses.fail _ _).bind _
  | some s =>
    -- there is a field, and the refusal is that of the comparison
    have hsign : Refuses c.next.comparison := by
      unfold comparison
      split
      · next sign hsign =>
        rw [lexeme?_eq, lexemes_next] at hsign
        exact absurd hsign (h sign)
      · exact .fail _ _
    exact hsign.bind _

/-! ### Groups -/

variable {inner : FilterReader}

/-- An operand that begins with no parenthesis is a condition. -/
theorem operand_eq_condition (h : c.lexemes.head? ≠ some .opening) :
    operand inner c = c.condition := by
  rw [operand, lexeme?_eq, if_neg h]

/-- The place behind an opening parenthesis. -/
def entered (c : Cursor) : Cursor := { c.next with opened := c.opened + 1 }

/-- The lexemes behind an opening parenthesis. -/
@[simp] theorem lexemes_entered (c : Cursor) : c.entered.lexemes = c.lexemes.tail := lexemes_next c

/-- Behind an opening parenthesis one more is open. -/
@[simp] theorem opened_entered (c : Cursor) : c.entered.opened = c.opened + 1 := rfl

/-- A filter in parentheses is what stands in them. -/
theorem operand_gives {f : Filter} (hhead : c.lexemes.head? = some .opening)
    (hopen : c.opened ≠ Filter.depthLimit)
    (hinner : Gives (inner c.entered) c.entered f (.closing :: more)) :
    Gives (operand inner c) c f more := by
  obtain ⟨c', hc', hmore, hopened⟩ := hinner
  refine ⟨{ c'.next with opened := c'.opened - 1 }, ?_, ?_, ?_⟩
  · -- what stands in the parentheses ends at the closing one
    have hclose : ({ c' with opened := c'.opened - 1 } : Cursor).lexeme? = some .closing := by
      rw [lexeme?_eq]
      show c'.lexemes.head? = _
      rw [hmore]
      rfl
    rw [operand, lexeme?_eq, if_pos hhead, if_neg hopen]
    show (inner c.entered >>= _) = _
    rw [hc']
    simp only [bind, Except.bind, hclose]
    rfl
  · show c'.next.lexemes = more
    rw [lexemes_next, hmore, List.tail_cons]
  · show c'.opened - 1 = c.opened
    rw [hopened, opened_entered, Nat.add_sub_cancel]

/-- What is refused in parentheses is refused with them. -/
theorem operand_refuses (hhead : c.lexemes.head? = some .opening)
    (hinner : c.opened ≠ Filter.depthLimit → Refuses (inner c.entered)) :
    Refuses (operand inner c) := by
  rw [operand, lexeme?_eq, if_pos hhead]
  split
  · exact .fail _ _
  · next hopen => exact (hinner hopen).bind _

/-! ### Chains -/

variable {connective : Connective} {reader : FilterReader}

/-- The written word of a connective is that of no other connective. -/
theorem isAt_word {written : Connective} (h : c.lexemes = .word written.text :: more) :
    c.isAt connective = decide (written = connective) := by
  have hat : c.isAt connective = Text.eqIgnoringCase written.text connective.text := by
    rw [isAt, lexeme?_eq, h]
    rfl
  rw [hat]
  cases written <;> cases connective <;> decide

/-- Where there is no word there is no connective. -/
theorem isAt_eq_false (h : ∀ s, c.lexemes.head? ≠ some (.word s)) : c.isAt connective = false := by
  unfold isAt
  split
  · next s hs =>
    rw [lexeme?_eq] at hs
    exact absurd hs (h s)
  · rfl

/-- A chain ends where its connective does not follow. -/
theorem chain_eq_ok {rounds : Nat} {left : Filter} (h : c.isAt connective = false) :
    chain connective reader rounds left c = .ok (left, c) := by
  cases rounds with
  | zero => rfl
  | succ rounds => rw [chain, if_neg (by simp [h])]

/-- Without its connective behind it, an operand stands alone. -/
theorem operands_eq_ok {f : Filter} {after : Cursor} (hf : reader c = .ok (f, after))
    (h : after.isAt connective = false) : operands connective reader c = .ok (f, after) := by
  rw [operands, hf]
  exact chain_eq_ok h

/-- Where the first operand is refused there is no chain. -/
theorem operands_refuses (h : Refuses (reader c)) : Refuses (operands connective reader c) :=
  h.bind _

/-- At a connective there is a token. -/
theorem rest_length_of_isAt (h : c.isAt connective = true) :
    ∃ rounds, c.rest.length = rounds + 1 := by
  cases hrest : c.rest with
  | nil => simp [isAt, lexeme?, hrest] at h
  | cons t rest => exact ⟨rest.length, rfl⟩

/-- Behind a connective the chain goes on with the next operand. -/
theorem operands_eq_node {left : Filter} {after : Cursor} (hleft : reader c = .ok (left, after))
    (hat : after.isAt connective = true) :
    ∃ rounds, operands connective reader c = (reader after.next >>= fun (right, last) =>
      after.node left connective right >>= fun joined =>
        chain connective reader rounds joined last) := by
  -- as there is a token left, the chain has a round left for it
  obtain ⟨rounds, hrounds⟩ := rest_length_of_isAt hat
  refine ⟨rounds, ?_⟩
  rw [operands, hleft]
  show chain connective reader after.rest.length left after = _
  rw [hrounds, chain, if_pos hat]

end Cursor

end ObjectMapping
