import Mathlib.Data.List.TakeWhile
import ObjectMapping.Proofs.Filter.Parsing
import ObjectMapping.Proofs.Filter.Scanning

/-! # Stages on the way through a filter

Whether a lexeme may stand behind others in a filter does not depend on their tree. It depends on
what is due there, and on how many parentheses are open: this is the `Stage` that the lexemes so far
lead to, and each further lexeme leads to the next stage or may not stand there. From every stage
there is a way to the end of a filter, so lexemes begin a filter exactly when they lead to a stage.

* **`Grammar.Stage.next?`** — the stage behind one more lexeme.
* **`Grammar.finished_iff_exists_phrase`** — the lexemes that lead from the start to the end are
  those that have a derivation.
* **`Filter.begins_iff`** — the lexemes with which the lexemes of a filter may begin. -/

namespace ObjectMapping

namespace Grammar

/-- What is **due** behind some of the lexemes of a filter. -/
inductive Due where
  /-- An operand. -/
  | operand
  /-- A comparison, behind the name of a field. -/
  | comparison
  /-- A scalar, behind a comparison. -/
  | scalar
  /-- A list, behind the word `IN`. -/
  | list
  /-- The first item of a list, or its end. -/
  | firstItem
  /-- A further item, behind a comma. -/
  | item
  /-- A comma or the end of a list, behind an item. -/
  | separator
  /-- A connective or the end of a filter, behind an operand. -/
  | connective
deriving DecidableEq

/-- A **stage** on the way through the lexemes of a filter. -/
structure Stage where
  /-- What is due. -/
  due : Due
  /-- The number of parentheses around filters that are open. -/
  opened : Nat
deriving DecidableEq

/-- Whether a lexeme is that of a term. -/
def isTerm : Lexeme → Bool
  | .quoted _ | .word _ => true
  | _ => false

/-- Whether a word is that of a connective. -/
def joins (word : String) : Bool :=
  [Connective.and, .or].any fun connective => Text.eqIgnoringCase word connective.text

/-- Whatever is told to be a term is the lexeme of one. -/
theorem exists_term_of_isTerm {l : Lexeme} (h : isTerm l = true) : ∃ t : Term, t.lexeme = l := by
  cases l with
  | quoted s => exact ⟨.quoted s, rfl⟩
  | word s => exact ⟨.bare s, rfl⟩
  | _ => cases h

/-- The word of a connective joins. -/
theorem joins_keyword {connective : Connective} (keyword : Keyword connective) :
    joins keyword.word = true :=
  List.any_eq_true.2 ⟨connective, by cases connective <;> decide, keyword.means⟩

/-- A word that joins is that of a connective. -/
theorem exists_keyword_of_joins {word : String} (h : joins word = true) :
    ∃ connective, ∃ keyword : Keyword connective, keyword.word = word := by
  obtain ⟨connective, -, hmeans⟩ := List.any_eq_true.1 h
  exact ⟨connective, ⟨word, hmeans⟩, rfl⟩

namespace Stage

/-- The stage at the start of a filter. -/
def start : Stage := ⟨.operand, 0⟩

/-- The stage at the end of a filter. -/
def finished : Stage := ⟨.connective, 0⟩

/-- **The stage behind one more lexeme**, if the lexeme may stand there. -/
def next? (s : Stage) (l : Lexeme) : Option Stage :=
  match s.due with
  | .operand =>
    if l = .opening then some ⟨.operand, s.opened + 1⟩
    else if isTerm l then some ⟨.comparison, s.opened⟩ else none
  | .comparison =>
    match l with
    | .sign sign => some ⟨if sign = .oneOf then .list else .scalar, s.opened⟩
    | _ => none
  | .scalar => if isTerm l then some ⟨.connective, s.opened⟩ else none
  | .list => if l = .opening then some ⟨.firstItem, s.opened⟩ else none
  | .firstItem =>
    if l = .closing then some ⟨.connective, s.opened⟩
    else if isTerm l then some ⟨.separator, s.opened⟩ else none
  | .item => if isTerm l then some ⟨.separator, s.opened⟩ else none
  | .separator =>
    if l = .comma then some ⟨.item, s.opened⟩
    else if l = .closing then some ⟨.connective, s.opened⟩ else none
  | .connective =>
    match l, s.opened with
    | .word w, opened => if joins w then some ⟨.operand, opened⟩ else none
    | .closing, opened + 1 => some ⟨.connective, opened⟩
    | _, _ => none

/-- The stage behind lexemes, if each of them may stand where it does. -/
def after? : Stage → List Lexeme → Option Stage
  | s, [] => some s
  | s, l :: ls => (s.next? l).bind fun s' => s'.after? ls

variable {s s' : Stage} {l : Lexeme} {ls : List Lexeme} {n : Nat}

/-- Behind one lexeme and the others. -/
theorem after?_cons_of_next? (h : s.next? l = some s') : s.after? (l :: ls) = s'.after? ls := by
  rw [after?, h, Option.bind_some]

/-- Behind lexemes one after the other. -/
theorem after?_append_of_after? (h : s.after? ls = some s') (more : List Lexeme) :
    s.after? (ls ++ more) = s'.after? more := by
  induction ls generalizing s with
  | nil =>
    cases h
    rfl
  | cons l ls ih =>
    obtain ⟨s₁, hnext, hafter⟩ := Option.bind_eq_some_iff.1 h
    rw [List.cons_append, after?_cons_of_next? hnext]
    exact ih hafter

/-- Lexemes lead somewhere if they do so with others behind them. -/
theorem exists_after?_of_append {more : List Lexeme} (h : s.after? (ls ++ more) = some s') :
    ∃ s₁, s.after? ls = some s₁ ∧ s₁.after? more = some s' := by
  induction ls generalizing s with
  | nil => exact ⟨s, rfl, h⟩
  | cons l ls ih =>
    obtain ⟨s₁, hnext, hafter⟩ := Option.bind_eq_some_iff.1 h
    obtain ⟨s₂, hls, hmore⟩ := ih hafter
    exact ⟨s₂, by rw [after?_cons_of_next? hnext, hls], hmore⟩

/-- Before the end there is one more lexeme. -/
theorem exists_cons_of_finished (h : s.after? ls = some finished) (hne : s ≠ finished) :
    ∃ l more s', ls = l :: more ∧ s.next? l = some s' ∧ s'.after? more = some finished := by
  cases ls with
  | nil => exact absurd (Option.some.inj h) hne
  | cons l more =>
    obtain ⟨s', hnext, hafter⟩ := Option.bind_eq_some_iff.1 h
    exact ⟨l, more, s', rfl, hnext, hafter⟩

/-! ### What may stand where -/

/-- A term may be the name of a field. -/
theorem next?_operand_term (t : Term) : next? ⟨.operand, n⟩ t.lexeme = some ⟨.comparison, n⟩ := by
  cases t <;> rfl

/-- A comparison other than `IN` goes with a scalar. -/
theorem next?_sign {sign : Comparison} (h : sign ≠ .oneOf) :
    next? ⟨.comparison, n⟩ (.sign sign) = some ⟨.scalar, n⟩ := by
  show some _ = _
  rw [if_neg h]

/-- A term may be a scalar. -/
theorem next?_scalar_term (t : Term) : next? ⟨.scalar, n⟩ t.lexeme = some ⟨.connective, n⟩ := by
  cases t <;> rfl

/-- A term may be a further item. -/
theorem next?_item_term (t : Term) : next? ⟨.item, n⟩ t.lexeme = some ⟨.separator, n⟩ := by
  cases t <;> rfl

/-- Behind an operand there may be a word for a connective. -/
theorem next?_keyword {connective : Connective} (keyword : Keyword connective) :
    next? ⟨.connective, n⟩ (.word keyword.word) = some ⟨.operand, n⟩ := by
  show (if joins keyword.word then _ else _) = _
  rw [if_pos (joins_keyword keyword)]

/-- Behind an operand there is the word for a connective, or the end of parentheses. -/
theorem next?_connective (h : next? ⟨.connective, n⟩ l = some s') :
    (∃ connective, ∃ keyword : Keyword connective, l = .word keyword.word ∧ s' = ⟨.operand, n⟩) ∨
      ∃ m, n = m + 1 ∧ l = .closing ∧ s' = ⟨.connective, m⟩ := by
  unfold next? at h
  dsimp only at h
  split at h
  · next w n =>
    split at h
    · next hjoins =>
      obtain ⟨connective, keyword, rfl⟩ := exists_keyword_of_joins hjoins
      exact .inl ⟨connective, keyword, rfl, (Option.some.inj h).symm⟩
    · cases h
  · next m => exact .inr ⟨m, rfl, rfl, (Option.some.inj h).symm⟩
  · cases h

end Stage

/-! ### Derivations lead from stage to stage -/

open Stage

/-- The items of a list lead to the end of the list. -/
theorem after?_items (t : Term) (rest : List Term) (n : Nat) :
    after? ⟨.item, n⟩ (itemLexemes (t :: rest) ++ [.closing]) = some ⟨.connective, n⟩ := by
  induction rest generalizing t with
  | nil =>
    show after? ⟨.item, n⟩ [t.lexeme, .closing] = _
    rw [after?_cons_of_next? (next?_item_term t)]
    rfl
  | cons u rest ih =>
    show after? ⟨.item, n⟩ (t.lexeme :: .comma :: (itemLexemes (u :: rest) ++ [.closing])) = _
    rw [after?_cons_of_next? (next?_item_term t)]
    exact ih u

/-- A list leads from its first item, or its end, to what is due behind it. -/
theorem after?_list (items : List Term) (n : Nat) :
    after? ⟨.firstItem, n⟩ (itemLexemes items ++ [.closing]) = some ⟨.connective, n⟩ := by
  cases items with
  | nil => rfl
  | cons t rest =>
    -- what is due first differs from what is due behind a comma in that the list may end
    rw [← after?_items t rest n]
    cases rest <;> cases t <;> rfl

/-- A condition leads from where an operand is due to behind it. -/
theorem Clause.after?_lexemes (c : Clause) (n : Nat) :
    after? ⟨.operand, n⟩ c.lexemes = some ⟨.connective, n⟩ := by
  cases c with
  | scalar name comparison hscalar value =>
    rw [Clause.lexemes, after?_cons_of_next? (next?_operand_term name),
      after?_cons_of_next? (next?_sign hscalar),
      after?_cons_of_next? (next?_scalar_term value.term)]
    rfl
  | list name items =>
    rw [Clause.lexemes, after?_cons_of_next? (next?_operand_term name)]
    exact after?_list items n

mutual

/-- **A phrase leads from where an operand is due to behind it**, whatever is open around it. -/
theorem Phrase.after?_lexemes {level : Level} : (d : Phrase level) → (n : Nat) →
    after? ⟨.operand, n⟩ d.lexemes = some ⟨.connective, n⟩
  | .clause clause, n => clause.after?_lexemes n
  | .group inner, n => by
    have hopening : next? ⟨.operand, n⟩ .opening = some ⟨.operand, n + 1⟩ := rfl
    rw [Phrase.lexemes, after?_cons_of_next? hopening,
      after?_append_of_after? (inner.after?_lexemes (n + 1))]
    rfl
  | .chain first rest, n => by
    rw [Phrase.lexemes, after?_append_of_after? (first.after?_lexemes n)]
    exact rest.after?_lexemes n

/-- The rest of a chain leads from behind an operand to behind the last one. -/
theorem Tail.after?_lexemes {connective : Connective} : (t : Tail connective) → (n : Nat) →
    after? ⟨.connective, n⟩ t.lexemes = some ⟨.connective, n⟩
  | .done, _ => rfl
  | .step keyword next rest, n => by
    rw [Tail.lexemes, after?_cons_of_next? (next?_keyword keyword),
      after?_append_of_after? (next.after?_lexemes n)]
    exact rest.after?_lexemes n

end

/-! ### What leads to the end has a derivation

Lexemes that lead from a stage to the end of a filter are taken apart from the front: where an
operand is due there is a phrase of each level, as long as can be, and behind an operand there is
the rest of a chain. -/

/-- Every term can be a scalar. -/
theorem Term.exists_scalar (t : Term) : ∃ v : Scalar, v.term = t := by
  cases t with
  | quoted s => exact ⟨⟨.quoted s, .text s, rfl⟩, rfl⟩
  | bare s => exact ⟨⟨.bare s, .ofWord s, Literal.standsFor_ofWord s⟩, rfl⟩

/-- Behind a comma there are an item, the other items of a list, and its end. -/
theorem exists_items {ls : List Lexeme} {n : Nat} (h : after? ⟨.item, n⟩ ls = some finished) :
    ∃ t rest more, ls = itemLexemes (t :: rest) ++ .closing :: more ∧
      after? ⟨.connective, n⟩ more = some finished := by
  obtain ⟨l, behind, s, rfl, hnext, h₁⟩ := exists_cons_of_finished h (by simp [finished])
  obtain ⟨hterm, rfl⟩ : isTerm l = true ∧ ⟨.separator, n⟩ = s := by simpa [next?] using hnext
  obtain ⟨t, rfl⟩ := exists_term_of_isTerm hterm
  obtain ⟨l, behind, s, rfl, hnext, h₂⟩ := exists_cons_of_finished h₁ (by simp [finished])
  by_cases hcomma : l = .comma
  · obtain rfl : ⟨.item, n⟩ = s := by simpa [next?, hcomma] using hnext
    obtain ⟨u, rest, more, rfl, hmore⟩ := exists_items h₂
    exact ⟨t, u :: rest, more, by rw [hcomma]; rfl, hmore⟩
  · obtain ⟨rfl, rfl⟩ : l = .closing ∧ ⟨.connective, n⟩ = s := by
      simpa [next?, hcomma] using hnext
    exact ⟨t, [], behind, rfl, h₂⟩
termination_by ls.length

/-- Behind the opening parenthesis of a list there are its items and its end. -/
theorem exists_list {ls : List Lexeme} {n : Nat}
    (h : after? ⟨.firstItem, n⟩ ls = some finished) :
    ∃ items more, ls = itemLexemes items ++ .closing :: more ∧
      after? ⟨.connective, n⟩ more = some finished := by
  obtain ⟨l, behind, s, rfl, hnext, h₁⟩ := exists_cons_of_finished h (by simp [finished])
  by_cases hclosing : l = .closing
  · obtain rfl : ⟨.connective, n⟩ = s := by simpa [next?, hclosing] using hnext
    exact ⟨[], behind, by rw [hclosing]; rfl, h₁⟩
  · -- a first item leads to where any other item leads
    have hitem : next? ⟨.item, n⟩ l = some s := by simpa [next?, hclosing] using hnext
    obtain ⟨t, rest, more, hls, hmore⟩ := exists_items (by rw [after?_cons_of_next? hitem, h₁])
    exact ⟨t :: rest, more, hls, hmore⟩

/-- Where an operand is due there is a condition, unless there is a parenthesis. -/
theorem exists_clause {l : Lexeme} {ls : List Lexeme} {n : Nat} (hopening : l ≠ .opening)
    (h : after? ⟨.operand, n⟩ (l :: ls) = some finished) :
    ∃ (clause : Clause) (more : List Lexeme), l :: ls = clause.lexemes ++ more ∧
      after? ⟨.connective, n⟩ more = some finished := by
  obtain ⟨s, hnext, h₁⟩ := Option.bind_eq_some_iff.1 h
  obtain ⟨hterm, rfl⟩ : isTerm l = true ∧ ⟨.comparison, n⟩ = s := by
    simpa [next?, hopening] using hnext
  obtain ⟨name, rfl⟩ := exists_term_of_isTerm hterm
  obtain ⟨l, behind, s, rfl, hnext, h₂⟩ := exists_cons_of_finished h₁ (by simp [finished])
  cases l with
  | sign sign =>
    by_cases hlist : sign = .oneOf
    · obtain rfl : ⟨.list, n⟩ = s := by simpa [next?, hlist] using hnext
      obtain ⟨l, behind, s, rfl, hnext, h₃⟩ := exists_cons_of_finished h₂ (by simp [finished])
      obtain ⟨rfl, rfl⟩ : l = .opening ∧ ⟨.firstItem, n⟩ = s := by simpa [next?] using hnext
      obtain ⟨items, more, rfl, hmore⟩ := exists_list h₃
      exact ⟨.list name items, more, by simp [Clause.lexemes, hlist], hmore⟩
    · obtain rfl : ⟨.scalar, n⟩ = s := by simpa [next?, hlist] using hnext
      obtain ⟨l, more, s, rfl, hnext, h₃⟩ := exists_cons_of_finished h₂ (by simp [finished])
      obtain ⟨hterm, rfl⟩ : isTerm l = true ∧ ⟨.connective, n⟩ = s := by
        simpa [next?] using hnext
      obtain ⟨t, rfl⟩ := exists_term_of_isTerm hterm
      obtain ⟨v, rfl⟩ := t.exists_scalar
      exact ⟨.scalar name sign hlist v, more, rfl, h₃⟩
  | _ => cases hnext

/-- The rank of a level: above that of the level which its connective joins. -/
def Level.rank : Level → Nat
  | .operand => 0
  | .chain .and => 1
  | .chain .or => 2

/-- A chain is above what it joins. -/
theorem Level.rank_joinedBy (k : Connective) : (Level.joinedBy k).rank < (Level.chain k).rank := by
  cases k <;> decide

/-- What ends the phrases of a chain, and is not its connective, ends the chain. -/
theorem Ends.chain {k : Connective} {more : List Lexeme} (h : Ends (.joinedBy k) more)
    (hno : ∀ keyword : Keyword k, more.head? ≠ some (.word keyword.word)) :
    Ends (.chain k) more := by
  intro k' hk' keyword
  by_cases heq : k' = k
  · subst heq
    exact hno keyword
  · refine h k' ?_ keyword
    revert hk' heq
    cases k <;> cases k' <;> decide

/-- Behind a filter that has ended there is a closing parenthesis, or nothing. -/
theorem eq_nil_or_closing {ls : List Lexeme} {n : Nat} (hends : Ends (.chain .or) ls)
    (h : after? ⟨.connective, n⟩ ls = some finished) :
    (ls = [] ∧ n = 0) ∨ ∃ m more, n = m + 1 ∧ ls = .closing :: more ∧
      after? ⟨.connective, m⟩ more = some finished := by
  cases ls with
  | nil =>
    cases h
    exact .inl ⟨rfl, rfl⟩
  | cons l more =>
    obtain ⟨s, hnext, hafter⟩ := Option.bind_eq_some_iff.1 h
    obtain ⟨k, keyword, rfl, -⟩ | ⟨m, rfl, rfl, rfl⟩ := next?_connective hnext
    · exact absurd rfl (hends k (by cases k <;> decide) keyword)
    · exact .inr ⟨m, more, rfl, rfl, hafter⟩

/-- A derivation has at least one lexeme. -/
theorem Phrase.length_lexemes_pos {level : Level} (d : Phrase level) : 0 < d.lexemes.length :=
  List.length_pos_iff.2 d.lexemes_ne_nil

mutual

/-- **Where an operand is due there is a phrase of each level**, as long as can be. -/
theorem exists_phrase (level : Level) {ls : List Lexeme} {n : Nat}
    (h : after? ⟨.operand, n⟩ ls = some finished) :
    ∃ (d : Phrase level) (more : List Lexeme), ls = d.lexemes ++ more ∧
      after? ⟨.connective, n⟩ more = some finished ∧ Ends level more := by
  cases level with
  | operand =>
    obtain ⟨l, behind, s, rfl, hnext, h₁⟩ := exists_cons_of_finished h (by simp [finished])
    by_cases hopening : l = .opening
    · obtain rfl : ⟨.operand, n + 1⟩ = s := by simpa [next?, hopening] using hnext
      obtain ⟨d, more, rfl, h₂, hends⟩ := exists_phrase (.chain .or) h₁
      obtain ⟨-, hn⟩ | ⟨m, more, hm, rfl, hmore⟩ := eq_nil_or_closing hends h₂
      · cases hn
      · cases hm
        exact ⟨.group d, more, by simp [Phrase.lexemes, hopening], hmore, .operand⟩
    · obtain ⟨clause, more, hclause, hmore⟩ := exists_clause hopening h
      exact ⟨.clause clause, more, hclause, hmore, .operand⟩
  | chain k =>
    have hrank := Level.rank_joinedBy k
    obtain ⟨d, more, hls, hmore, hends⟩ := exists_phrase (.joinedBy k) h
    have hshorter : more.length < ls.length := by
      rw [hls, List.length_append]
      exact Nat.lt_add_of_pos_left d.length_lexemes_pos
    obtain ⟨t, rest, rfl, hrest, hends⟩ := exists_tail k hmore hends
    exact ⟨.chain d t, rest, by rw [hls, Phrase.lexemes, List.append_assoc], hrest, hends⟩
termination_by (ls.length, level.rank)

/-- **Behind a phrase there is the rest of a chain**, as long as can be. -/
theorem exists_tail (k : Connective) {ls : List Lexeme} {n : Nat}
    (h : after? ⟨.connective, n⟩ ls = some finished) (hends : Ends (.joinedBy k) ls) :
    ∃ (t : Tail k) (more : List Lexeme), ls = t.lexemes ++ more ∧
      after? ⟨.connective, n⟩ more = some finished ∧ Ends (.chain k) more := by
  by_cases hkeyword : ∃ keyword : Keyword k, ls.head? = some (.word keyword.word)
  · obtain ⟨keyword, hhead⟩ := hkeyword
    obtain ⟨behind, rfl⟩ := List.head?_eq_some_iff.1 hhead
    rw [after?_cons_of_next? (next?_keyword keyword)] at h
    obtain ⟨d, more, rfl, hmore, hends⟩ := exists_phrase (.joinedBy k) h
    obtain ⟨t, rest, rfl, hrest, hends⟩ := exists_tail k hmore hends
    exact ⟨.step keyword d t, rest, by simp [Tail.lexemes], hrest, hends⟩
  · exact ⟨.done, ls, rfl, h, hends.chain (not_exists.1 hkeyword)⟩
termination_by (ls.length, 0)

end

/-- **The lexemes that lead from the start to the end of a filter are those that have a
derivation.** -/
theorem finished_iff_exists_phrase {ls : List Lexeme} :
    start.after? ls = some finished ↔ ∃ d : Phrase (.chain .or), d.lexemes = ls := by
  constructor
  · intro h
    obtain ⟨d, more, rfl, hmore, hends⟩ := exists_phrase (.chain .or) h
    obtain ⟨rfl, -⟩ | ⟨m, more, hm, -⟩ := eq_nil_or_closing hends hmore
    · exact ⟨d, (List.append_nil _).symm⟩
    · cases hm
  · rintro ⟨d, rfl⟩
    exact d.after?_lexemes 0

/-! ### The way to the end -/

namespace Stage

/-- Lexemes that **lead on** from a stage to the end of a filter: whatever is due there, and then a
closing parenthesis for each that is open. -/
def wayOut (s : Stage) : List Lexeme :=
  (match s.due with
    | .operand => [.quoted "", .sign .equal, .quoted ""]
    | .comparison => [.sign .equal, .quoted ""]
    | .scalar => [.quoted ""]
    | .list => [.opening, .closing]
    | .firstItem => [.closing]
    | .item => [.quoted "", .closing]
    | .separator => [.closing]
    | .connective => []) ++ List.replicate s.opened .closing

/-- Closing parentheses end a filter. -/
theorem after?_replicate_closing (n : Nat) :
    after? ⟨.connective, n⟩ (List.replicate n .closing) = some finished := by
  induction n with
  | zero => rfl
  | succ n ih => exact ih

/-- **From every stage there is a way to the end of a filter.** -/
theorem after?_wayOut (s : Stage) : s.after? s.wayOut = some finished := by
  obtain ⟨due, n⟩ := s
  cases due <;> exact after?_replicate_closing n

end Stage

end Grammar

/-! ### Texts for lexemes

Every lexeme that is read from a text can be written so that anything may follow: with a blank
behind it. -/

namespace Lexeme

/-- What stands in quotes is found whatever comes behind them. -/
theorem splitQuoted_of_eq_some {cs body rest : List Char} (h : splitQuoted cs = some (body, rest))
    (more : List Char) : splitQuoted (body ++ '"' :: more) = some (body, more) := by
  fun_induction splitQuoted cs generalizing body with
  | case1 => cases h
  | case2 =>
    cases h
    rfl
  | case3 => cases h
  | case4 c tail ih =>
    obtain ⟨⟨b, r⟩, hs, he⟩ := Option.map_eq_some_iff.1 h
    cases he
    show (splitQuoted (b ++ '"' :: more)).map _ = _
    rw [ih hs]
    rfl
  | case5 c tail hquote hend hescape ih =>
    obtain ⟨⟨b, r⟩, hs, he⟩ := Option.map_eq_some_iff.1 h
    cases he
    -- a backslash is the last character or stands in front of another one
    have hplain : c ≠ '\\' := by
      rintro rfl
      cases tail with
      | nil => exact hend rfl rfl
      | cons c' tail => exact hescape c' tail rfl rfl
    rw [List.cons_append, splitQuoted, ih hs]
    · rfl
    · exact hquote
    · exact fun h _ => hplain h
    · exact fun _ _ h _ => hplain h

/-- A lexeme is read again when a blank comes behind it. -/
theorem read_of_read {c : Char} {cs : List Char} {r : Reading} (hblank : Text.isBlank c = false)
    (h : read c cs = .ok r) (more : List Char) :
    read c (r.used ++ ' ' :: more) = .ok ⟨r.lexeme, r.used, ' ' :: more⟩ := by
  unfold read at h
  split at h
  case h_8 => cases h
  case h_13 =>
    split at h
    · next body rest hs =>
      cases h
      rw [List.append_assoc, List.singleton_append, read, splitQuoted_of_eq_some hs]
    · cases h
  case h_14 =>
    cases h
    -- none of the other cases applies, so the character is one of a word
    have hmarks : c ∉ marks := by
      simp only [marks, List.mem_cons, List.not_mem_nil, or_false, not_or]
      and_intros <;> assumption
    have hword : isWordChar c = true := by simp [isWordChar, hblank, hmarks]
    refine read_word (List.forall_mem_cons.2 ⟨hword, fun x hx => ?_⟩) (endsWord_cons.2 (by decide))
    exact List.mem_takeWhile_imp hx
  all_goals
    cases h
    rfl

end Lexeme

namespace Token

/-- Lexemes each of which can be written so that anything may follow can be written together. -/
theorem Delimited.exists_of_forall {ls : List Lexeme} (h : ∀ l ∈ ls, ∃ cs, Delimited cs [l]) :
    ∃ cs, Delimited cs ls := by
  induction ls with
  | nil => exact ⟨[], .nil⟩
  | cons l ls ih =>
    obtain ⟨hl, hls⟩ := List.forall_mem_cons.1 h
    obtain ⟨a, ha⟩ := hl
    obtain ⟨b, hb⟩ := ih hls
    exact ⟨a ++ b, ha.append hb⟩

/-- What is read as a lexeme can be written so that anything may follow. -/
theorem Delimited.of_read {c : Char} {cs : List Char} {r : Lexeme.Reading}
    (hblank : Text.isBlank c = false) (h : Lexeme.read c cs = .ok r) :
    Delimited (c :: r.used ++ [' ']) [r.lexeme] := by
  have hspaced : Spells (fun rest => ∃ more, rest = ' ' :: more) (c :: r.used) [r.lexeme] := by
    refine .single hblank ?_
    rintro _ ⟨more, rfl⟩
    exact Lexeme.read_of_read hblank h more
  exact Spells.append hspaced Delimited.blank fun rest _ => ⟨rest, rfl⟩

/-- The lexemes that a text is scanned to can be written so that anything may follow. -/
theorem exists_delimited_of_scan {offset : Nat} {cs : List Char} {tokens : List Token}
    (h : scan offset cs = .ok tokens) : ∀ t ∈ tokens, ∃ text, Delimited text [t.lexeme] := by
  intro t ht
  obtain ⟨offset', hscans⟩ := scan_eq_ok_iff.1 h
  obtain ⟨before, c, after, r, -, hblank, hread, hlexeme⟩ := hscans.exists_of_mem ht
  rw [← hlexeme]
  exact ⟨_, .of_read hblank hread⟩

end Token

/-- Every lexeme on the way out of a stage can be written so that anything may follow. -/
theorem Grammar.Stage.exists_delimited_of_mem_wayOut {s : Stage} {l : Lexeme} (h : l ∈ s.wayOut) :
    ∃ cs, Token.Delimited cs [l] := by
  have hcases : l = .quoted "" ∨ l = .sign .equal ∨ l = .opening ∨ l = .closing := by
    obtain ⟨due, n⟩ := s
    cases due <;> simp [wayOut] at h <;> grind
  obtain rfl | rfl | rfl | rfl := hcases
  · exact ⟨_, .quoted ""⟩
  · exact ⟨_, .sign .equal⟩
  · exact ⟨_, .opening⟩
  · exact ⟨_, .closing⟩

/-! ### Beginnings -/

namespace Filter

open Grammar Stage

/-- A text is **grammatical**: it is a filter but for the limits on depth. -/
def Grammatical (text : String) : Prop :=
  ∃ tokens, Token.scan 0 text.toList = .ok tokens ∧
    (tokens = [] ∨ ∃ d : Phrase (.chain .or), d.lexemes = tokens.map Token.lexeme)

/-- Lexemes **begin** a filter: they are the first ones of a grammatical text. -/
def Begins (ls : List Lexeme) : Prop :=
  ∃ text tokens, Grammatical text ∧ Token.scan 0 text.toList = .ok tokens ∧
    ls <+: tokens.map Token.lexeme

/-- Lexemes that begin a filter lead to a stage. -/
theorem Begins.exists_stage {ls : List Lexeme} (h : Begins ls) :
    ∃ s, start.after? ls = some s := by
  obtain ⟨text, tokens, ⟨tokens', hscan', hgrammatical⟩, hscan, more, hmore⟩ := h
  cases hscan.symm.trans hscan'
  obtain rfl | ⟨d, hd⟩ := hgrammatical
  · rw [(List.append_eq_nil_iff.1 hmore).1]
    exact ⟨start, rfl⟩
  · have hfinished : start.after? (ls ++ more) = some finished := by
      rw [hmore]
      exact finished_iff_exists_phrase.2 ⟨d, hd⟩
    obtain ⟨s, hs, -⟩ := exists_after?_of_append hfinished
    exact ⟨s, hs⟩

/-- **Lexemes with which a filter may begin** are those that lead to a stage, if each of them can be
written. -/
theorem begins_iff {ls : List Lexeme} (hwritable : ∀ l ∈ ls, ∃ cs, Token.Delimited cs [l]) :
    Begins ls ↔ ∃ s, start.after? ls = some s := by
  refine ⟨Begins.exists_stage, fun ⟨s, hs⟩ => ?_⟩
  -- a text for these lexemes and for the way out
  have hall : ∀ l ∈ ls ++ s.wayOut, ∃ cs, Token.Delimited cs [l] := fun l hl =>
    (List.mem_append.1 hl).elim (hwritable l) exists_delimited_of_mem_wayOut
  obtain ⟨cs, hcs⟩ := Token.Delimited.exists_of_forall hall
  obtain ⟨tokens, htokens, hscan⟩ := hcs [] trivial 0
  have hscan : Token.scan 0 (String.ofList cs).toList = .ok tokens := by
    rw [Token.scan_nil, List.append_nil] at hscan
    rw [String.toList_ofList, hscan]
    simp [Except.map]
  have hderived : ∃ d : Phrase (.chain .or), d.lexemes = tokens.map Token.lexeme := by
    rw [htokens, ← finished_iff_exists_phrase, after?_append_of_after? hs]
    exact s.after?_wayOut
  exact ⟨String.ofList cs, tokens, ⟨tokens, hscan, .inr hderived⟩, hscan, s.wayOut, htokens.symm⟩

end Filter

end ObjectMapping
