import ObjectMapping.Filter.Token

/-! # The grammar of filter text

Here the grammar of filter text is written down as data. A `Phrase` is a derivation: it says which
lexemes stand for what, it has a list of lexemes (`Phrase.lexemes`) and it has a filter as its tree
(`Phrase.tree`). The words `OR` and `AND` are words like any other, so a derivation is where it
shows whether such a word is a connective, a name or a text.

* a disjunction is conjunctions with `OR` between them, and a conjunction is operands with `AND`
  between them, both grouped from the left;
* an operand is a disjunction in parentheses or a condition;
* a condition is a name, a comparison and a scalar, or a name, `IN` and a list in parentheses.

**`Phrase.unique`** — lexemes have one derivation at most. -/

namespace ObjectMapping

/-! ### What bare words stand for -/

/-- Digits **write** the natural number of which they are the decimal digits. -/
structure WritesDigits (digits : List Char) (n : Nat) : Prop where
  ne_nil : digits ≠ []
  isDigit : ∀ c ∈ digits, c.isDigit = true
  value : n = Nat.ofDigitChars 10 digits 0

/-- Digits with or without a sign in front **write** an integer. -/
inductive WritesInteger : List Char → Int → Prop where
  /-- Digits alone. -/
  | plain {digits : List Char} {n : Nat} (h : WritesDigits digits n) : WritesInteger digits n
  /-- Digits with a plus sign. -/
  | plus {digits : List Char} {n : Nat} (h : WritesDigits digits n) :
      WritesInteger ('+' :: digits) n
  /-- Digits with a minus sign. -/
  | minus {digits : List Char} {n : Nat} (h : WritesDigits digits n) :
      WritesInteger ('-' :: digits) (-n)

/-- A bare word **stands for** a literal: a number of 64 bits that it writes, or else a truth value
that it names in any case of its letters, or else itself. -/
inductive StandsFor (word : String) : Literal → Prop where
  /-- The word writes a number. -/
  | number (n : Int64) (h : WritesInteger word.toList n.toInt) : StandsFor word (.number n)
  /-- The word writes no number and names a truth value. -/
  | bool (b : Bool) (hno : ∀ n : Int64, ¬ WritesInteger word.toList n.toInt)
      (h : Text.eqIgnoringCase word (toString b) = true) : StandsFor word (.bool b)
  /-- The word writes no number and names no truth value. -/
  | text (hno : ∀ n : Int64, ¬ WritesInteger word.toList n.toInt)
      (h : ∀ b : Bool, Text.eqIgnoringCase word (toString b) = false) : StandsFor word (.text word)

/-- Digits write one number. -/
theorem WritesDigits.unique {digits : List Char} {m n : Nat} (hm : WritesDigits digits m)
    (hn : WritesDigits digits n) : m = n := hm.value.trans hn.value.symm

/-- A sign is no digit. -/
theorem WritesDigits.head_isDigit {c : Char} {digits : List Char} {n : Nat}
    (h : WritesDigits (c :: digits) n) : c.isDigit = true := h.isDigit c List.mem_cons_self

/-- Characters write one integer. -/
theorem WritesInteger.unique {word : List Char} {m n : Int} (hm : WritesInteger word m)
    (hn : WritesInteger word n) : m = n := by
  cases hm with
  | plain hm =>
    cases hn with
    | plain hn => rw [hm.unique hn]
    | plus hn => exact absurd hm.head_isDigit (by decide)
    | minus hn => exact absurd hm.head_isDigit (by decide)
  | plus hm =>
    cases hn with
    | plain hn => exact absurd hn.head_isDigit (by decide)
    | plus hn => rw [hm.unique hn]
  | minus hm =>
    cases hn with
    | plain hn => exact absurd hn.head_isDigit (by decide)
    | minus hn => rw [hm.unique hn]

/-- A bare word stands for one literal. -/
theorem StandsFor.unique {word : String} {l l' : Literal} (h : StandsFor word l)
    (h' : StandsFor word l') : l = l' := by
  cases h with
  | number n h =>
    cases h' with
    | number n' h' => rw [Int64.toInt_inj.1 (h.unique h')]
    | bool _ hno _ => exact absurd h (hno n)
    | text hno _ => exact absurd h (hno n)
  | bool b hno h =>
    cases h' with
    | number n' h' => exact absurd h' (hno n')
    | bool b' _ h' =>
      rw [Text.eqIgnoringCase_iff] at h h'
      have hfold : Text.fold (toString b) = Text.fold (toString b') := h.symm.trans h'
      revert hfold
      cases b <;> cases b' <;> decide
    | text _ hnot => rw [hnot b] at h; cases h
  | text hno hnot =>
    cases h' with
    | number n' h' => exact absurd h' (hno n')
    | bool b' _ h' => rw [hnot b'] at h'; cases h'
    | text _ _ => rfl

namespace Grammar

/-! ### Conditions -/

/-- A **term**: what can be a name, a scalar or an item of a list. -/
inductive Term where
  /-- A quoted text. -/
  | quoted (text : String)
  /-- A bare word. -/
  | bare (word : String)

namespace Term

/-- The lexeme of a term. -/
def lexeme : Term → Lexeme
  | .quoted s => .quoted s
  | .bare s => .word s

/-- The text of a term. -/
def text : Term → String
  | .quoted s => s
  | .bare s => s

/-- A term as a scalar **stands for** a literal: a quoted text for itself. -/
def StandsFor : Term → Literal → Prop
  | .quoted s, l => l = .text s
  | .bare s, l => ObjectMapping.StandsFor s l

/-- Terms with one lexeme are equal. -/
theorem lexeme_injective {t u : Term} (h : t.lexeme = u.lexeme) : t = u := by
  cases t <;> cases u <;> cases h <;> rfl

/-- A term as a scalar stands for one literal. -/
theorem StandsFor.unique {t : Term} {l l' : Literal} (h : t.StandsFor l) (h' : t.StandsFor l') :
    l = l' := by
  cases t with
  | quoted s => exact Eq.trans h (Eq.symm h')
  | bare s => exact ObjectMapping.StandsFor.unique h h'

end Term

/-- A **scalar**: a term with the literal for which it stands. -/
structure Scalar where
  /-- The term. -/
  term : Term
  /-- The literal. -/
  literal : Literal
  /-- The term stands for the literal. -/
  stands : term.StandsFor literal

/-- Scalars with one term are equal. -/
theorem Scalar.ext_of_term {v w : Scalar} (h : v.term = w.term) : v = w := by
  obtain ⟨t, l, hl⟩ := v
  obtain ⟨t', l', hl'⟩ := w
  obtain rfl : t = t' := h
  obtain rfl := hl.unique hl'
  rfl

/-- The lexemes of the items of a list, with commas between them. -/
def itemLexemes (items : List Term) : List Lexeme := (items.map Term.lexeme).intersperse .comma

/-- The derivation of a **condition**. -/
inductive Clause where
  /-- A name, a comparison other than `IN`, and a scalar. -/
  | scalar (name : Term) (comparison : Comparison) (hscalar : comparison ≠ .oneOf) (value : Scalar)
  /-- A name, the word `IN`, and items in parentheses with commas between them. -/
  | list (name : Term) (items : List Term)

namespace Clause

/-- The lexemes of a condition. -/
def lexemes : Clause → List Lexeme
  | .scalar name comparison _ value => [name.lexeme, .sign comparison, value.term.lexeme]
  | .list name items =>
    name.lexeme :: .sign .oneOf :: .opening :: (itemLexemes items ++ [.closing])

/-- The condition that is derived. -/
def condition : Clause → Condition
  | .scalar name comparison _ value => ⟨name.text, comparison, value.literal⟩
  | .list name items => ⟨name.text, .oneOf, .list (items.map Term.text)⟩

end Clause

/-! ### Filters -/

/-- A **word for a connective**, in any case of its letters. -/
structure Keyword (connective : Connective) where
  /-- The word. -/
  word : String
  /-- The word is that of the connective. -/
  means : Text.eqIgnoringCase word connective.text = true

/-- A **level** of the grammar: operands, and chains of a connective. -/
inductive Level where
  /-- A disjunction in parentheses, or a condition. -/
  | operand
  /-- Phrases with a connective between them. -/
  | chain (connective : Connective)

/-- The level of the phrases that a connective joins: `AND` joins operands, and `OR` joins chains of
`AND`. -/
def Level.joinedBy : Connective → Level
  | .and => .operand
  | .or => .chain .and

mutual

/-- A **derivation** at a level of the grammar. -/
inductive Phrase : Level → Type where
  /-- A condition is an operand. -/
  | clause (clause : Clause) : Phrase .operand
  /-- A disjunction in parentheses is an operand. -/
  | group (inner : Phrase (.chain .or)) : Phrase .operand
  /-- A chain is a first phrase and the others. -/
  | chain {connective : Connective} (first : Phrase (.joinedBy connective))
      (rest : Tail connective) : Phrase (.chain connective)

/-- The derivation of the phrases of a chain behind the first one. -/
inductive Tail : Connective → Type where
  /-- There are no more phrases. -/
  | done {connective : Connective} : Tail connective
  /-- A word for the connective, one more phrase, and the others. -/
  | step {connective : Connective} (keyword : Keyword connective)
      (next : Phrase (.joinedBy connective)) (rest : Tail connective) : Tail connective

end

mutual

/-- The **lexemes** of a derivation. -/
def Phrase.lexemes {level : Level} : Phrase level → List Lexeme
  | .clause clause => clause.lexemes
  | .group inner => .opening :: (inner.lexemes ++ [.closing])
  | .chain first rest => first.lexemes ++ rest.lexemes

/-- The lexemes of the rest of a chain. -/
def Tail.lexemes {connective : Connective} : Tail connective → List Lexeme
  | .done => []
  | .step keyword next rest => .word keyword.word :: (next.lexemes ++ rest.lexemes)

end

mutual

/-- The **tree** of a derivation, in which parentheses do not show. -/
def Phrase.tree {level : Level} : Phrase level → Filter
  | .clause clause => .condition clause.condition
  | .group inner => inner.tree
  | .chain first rest => rest.tree first.tree

/-- The tree of a chain, given that of the phrases so far: phrases are grouped from the left. -/
def Tail.tree {connective : Connective} : Tail connective → (left : Filter) → Filter
  | .done, left => left
  | .step _ next rest, left => rest.tree (.binary left connective next.tree)

end

mutual

/-- The number of **parentheses** that are open at once. -/
def Phrase.nesting {level : Level} : Phrase level → Nat
  | .clause _ => 0
  | .group inner => inner.nesting + 1
  | .chain first rest => max first.nesting rest.nesting

/-- The number of parentheses that are open at once in the rest of a chain. -/
def Tail.nesting {connective : Connective} : Tail connective → Nat
  | .done => 0
  | .step _ next rest => max next.nesting rest.nesting

end

/-! ### Where a phrase ends -/

/-- The connectives that go on with a phrase of a level. -/
def Level.connectives : Level → List Connective
  | .operand => []
  | .chain .and => [.and]
  | .chain .or => [.and, .or]

/-- What follows **ends** a phrase of a level: it does not begin with a connective that goes on with
the phrase. -/
def Ends (level : Level) (more : List Lexeme) : Prop :=
  ∀ connective ∈ level.connectives, ∀ keyword : Keyword connective,
    more.head? ≠ some (.word keyword.word)

/-- A word is that of one connective. -/
theorem Keyword.connective_eq {k k' : Connective} (w : Keyword k) (w' : Keyword k')
    (h : w.word = w'.word) : k = k' := by
  have hw := (Text.eqIgnoringCase_iff _ _).1 w.means
  have hw' := (Text.eqIgnoringCase_iff _ _).1 w'.means
  rw [h, hw'] at hw
  revert hw
  cases k <;> cases k' <;> decide

/-- Words for a connective with one text are equal. -/
theorem Keyword.ext_of_word {k : Connective} {w w' : Keyword k} (h : w.word = w'.word) :
    w = w' := by
  cases w; cases w'; cases h; rfl

/-- Behind an operand anything may follow. -/
theorem Ends.operand {more : List Lexeme} : Ends .operand more := fun k hk => by cases hk

/-- The end of the text ends every phrase. -/
theorem Ends.nil {level : Level} : Ends level [] := fun _ _ _ h => by cases h

/-- A closing parenthesis ends every phrase. -/
theorem Ends.closing {level : Level} {more : List Lexeme} : Ends level (.closing :: more) :=
  fun _ _ _ h => by cases h

/-- What ends a chain does not begin with its connective. -/
theorem Ends.head?_ne {k : Connective} {more : List Lexeme} (h : Ends (.chain k) more)
    (keyword : Keyword k) : more.head? ≠ some (.word keyword.word) :=
  h k (by cases k <;> decide) keyword

/-- In a chain, what follows a phrase ends it: the connective of the chain, or what ends the
chain. -/
theorem Ends.joinedBy {k : Connective} {more : List Lexeme} (h : Ends (.chain k) more)
    (rest : Tail k) : Ends (.joinedBy k) (rest.lexemes ++ more) := by
  cases k with
  | and => exact Ends.operand
  | or =>
    intro k hk keyword
    obtain rfl := List.mem_singleton.1 hk
    cases rest with
    | done => exact h .and (by decide) keyword
    | step keyword' next rest =>
      intro hhead
      rw [Tail.lexemes, List.cons_append, List.head?_cons, Option.some.injEq,
        Lexeme.word.injEq] at hhead
      cases keyword'.connective_eq keyword hhead

/-! ### Uniqueness -/

/-- No term is an opening parenthesis. -/
theorem Term.lexeme_ne_opening (t : Term) : t.lexeme ≠ .opening := by
  cases t <;> exact Lexeme.noConfusion

/-- No term is a closing parenthesis. -/
theorem Term.lexeme_ne_closing (t : Term) : t.lexeme ≠ .closing := by
  cases t <;> exact Lexeme.noConfusion

/-- The items of a list are told from its end by their lexemes. -/
theorem itemLexemes_unique {items items' : List Term} {more more' : List Lexeme}
    (h : itemLexemes items ++ .closing :: more = itemLexemes items' ++ .closing :: more') :
    items = items' ∧ more = more' := by
  -- the induction is on the items, and behind each of them there is a comma or the end
  induction items generalizing items' with
  | nil =>
    match items' with
    | [] => exact ⟨rfl, (List.cons.inj h).2⟩
    | [t'] => exact absurd (List.cons.inj h).1.symm t'.lexeme_ne_closing
    | t' :: u' :: rest' => exact absurd (List.cons.inj h).1.symm t'.lexeme_ne_closing
  | cons t rest ih =>
    match rest, items' with
    | [], [] => exact absurd (List.cons.inj h).1 t.lexeme_ne_closing
    | u :: rest, [] => exact absurd (List.cons.inj h).1 t.lexeme_ne_closing
    | [], [t'] =>
      obtain ⟨ht, hmore⟩ := List.cons.inj h
      rw [Term.lexeme_injective ht]
      exact ⟨rfl, (List.cons.inj hmore).2⟩
    | [], t' :: u' :: rest' => cases (List.cons.inj (List.cons.inj h).2).1
    | u :: rest, [t'] => cases (List.cons.inj (List.cons.inj h).2).1
    | u :: rest, t' :: u' :: rest' =>
      obtain ⟨ht, hcomma⟩ := List.cons.inj h
      have hitems : itemLexemes (u :: rest) ++ .closing :: more =
          itemLexemes (u' :: rest') ++ .closing :: more' := (List.cons.inj hcomma).2
      obtain ⟨hrest, hmore⟩ := ih hitems
      rw [Term.lexeme_injective ht, hrest]
      exact ⟨rfl, hmore⟩

/-- The lexemes of a condition tell where it ends and how it is derived. -/
theorem Clause.unique {c c' : Clause} {more more' : List Lexeme}
    (h : c.lexemes ++ more = c'.lexemes ++ more') : c = c' ∧ more = more' := by
  cases c with
  | scalar name comparison hscalar value =>
    cases c' with
    | scalar name' comparison' hscalar' value' =>
      simp only [lexemes, List.cons_append, List.nil_append, List.cons.injEq,
        Lexeme.sign.injEq] at h
      obtain ⟨hname, rfl, hvalue, hmore⟩ := h
      rw [Term.lexeme_injective hname, Scalar.ext_of_term (Term.lexeme_injective hvalue)]
      exact ⟨rfl, hmore⟩
    | list name' items' =>
      simp only [lexemes, List.cons_append, List.nil_append, List.cons.injEq,
        Lexeme.sign.injEq] at h
      exact absurd h.2.1 hscalar
  | list name items =>
    cases c' with
    | scalar name' comparison' hscalar' value' =>
      simp only [lexemes, List.cons_append, List.nil_append, List.cons.injEq,
        Lexeme.sign.injEq] at h
      exact absurd h.2.1.symm hscalar'
    | list name' items' =>
      simp only [lexemes, List.cons_append, List.append_assoc, List.nil_append, List.cons.injEq,
        true_and] at h
      obtain ⟨rfl, hmore⟩ := itemLexemes_unique h.2
      rw [Term.lexeme_injective h.1]
      exact ⟨rfl, hmore⟩

/-- A condition begins with a term. -/
theorem Clause.exists_head (c : Clause) : ∃ t : Term, ∃ rest, c.lexemes = t.lexeme :: rest := by
  cases c with
  | scalar name _ _ _ => exact ⟨name, _, rfl⟩
  | list name _ => exact ⟨name, _, rfl⟩

/-- A condition does not begin with a parenthesis. -/
theorem Clause.lexemes_ne_opening (c : Clause) {more rest : List Lexeme} :
    c.lexemes ++ more ≠ .opening :: rest := by
  obtain ⟨t, lexemes, h⟩ := c.exists_head
  rw [h]
  exact fun heq => t.lexeme_ne_opening (List.cons.inj heq).1

mutual

/-- **Lexemes have one derivation at most**, also when others follow that end the phrase. -/
theorem Phrase.unique {level : Level} : (d d' : Phrase level) → {more more' : List Lexeme} →
    Ends level more → Ends level more' → d.lexemes ++ more = d'.lexemes ++ more' →
    d = d' ∧ more = more'
  | .clause c, .clause c', more, more', _, _, h => by
    obtain ⟨rfl, hmore⟩ := Clause.unique (by simpa only [Phrase.lexemes] using h)
    exact ⟨rfl, hmore⟩
  | .clause c, .group inner', more, more', _, _, h => by
    simp only [Phrase.lexemes, List.cons_append] at h
    exact absurd h c.lexemes_ne_opening
  | .group inner, .clause c', more, more', _, _, h => by
    simp only [Phrase.lexemes, List.cons_append] at h
    exact absurd h.symm c'.lexemes_ne_opening
  | .group inner, .group inner', more, more', _, _, h => by
    simp only [Phrase.lexemes, List.cons_append, List.append_assoc, List.cons.injEq,
      true_and] at h
    obtain ⟨rfl, hmore⟩ := Phrase.unique inner inner' .closing .closing h
    exact ⟨rfl, (List.cons.inj hmore).2⟩
  | .chain first rest, .chain first' rest', more, more', hends, hends', h => by
    simp only [Phrase.lexemes, List.append_assoc] at h
    obtain ⟨rfl, hrest⟩ :=
      Phrase.unique first first' (hends.joinedBy rest) (hends'.joinedBy rest') h
    obtain ⟨rfl, hmore⟩ := Tail.unique rest rest' hends hends' hrest
    exact ⟨rfl, hmore⟩

/-- The rest of a chain has one derivation at most. -/
theorem Tail.unique {k : Connective} : (t t' : Tail k) → {more more' : List Lexeme} →
    Ends (.chain k) more → Ends (.chain k) more' → t.lexemes ++ more = t'.lexemes ++ more' →
    t = t' ∧ more = more'
  | .done, .done, more, more', _, _, h => ⟨rfl, h⟩
  | .done, .step keyword _ _, more, more', hends, _, h => by
    refine absurd ?_ (hends.head?_ne keyword)
    have hmore : more = _ := h
    rw [hmore]
    rfl
  | .step keyword _ _, .done, more, more', _, hends', h => by
    refine absurd ?_ (hends'.head?_ne keyword)
    have hmore' : more' = _ := h.symm
    rw [hmore']
    rfl
  | .step keyword next rest, .step keyword' next' rest', more, more', hends, hends', h => by
    simp only [Tail.lexemes, List.cons_append, List.append_assoc, List.cons.injEq,
      Lexeme.word.injEq] at h
    obtain ⟨hword, h⟩ := h
    obtain rfl := Keyword.ext_of_word hword
    obtain ⟨rfl, hrest⟩ := Phrase.unique next next' (hends.joinedBy rest) (hends'.joinedBy rest') h
    obtain ⟨rfl, hmore⟩ := Tail.unique rest rest' hends hends' hrest
    exact ⟨rfl, hmore⟩

end

end Grammar

end ObjectMapping
