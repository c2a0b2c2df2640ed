import ObjectMapping.Filter.Text
import ObjectMapping.Filter.Token

/-! # The lexemes of filter text

A filter is written as a sequence of lexemes (`Filter.lexemes`) with single blanks between some of
them. This file shows that scanning its text gives these lexemes back.

* **`Token.Spells cs ls`** — scanning the characters `cs`, and then whatever does not go on with a
  word, gives tokens with the lexemes `ls` first. It is composed piece by piece (`Spells.append`).
* **`Filter.spells_text`** — the text of a filter spells the lexemes of the filter. -/

namespace ObjectMapping

/-! ### The lexemes that are written -/

/-- The lexemes of a literal as it is written. -/
def Literal.lexemes : Literal → List Lexeme
  | .text s => [.quoted s]
  | .number n => [.word (toString n.toInt)]
  | .bool b => [.word (toString b)]
  | .list items => .opening :: (items.map Lexeme.quoted).intersperse .comma ++ [.closing]

/-- The lexemes of a condition as it is written. -/
def Condition.lexemes (c : Condition) : List Lexeme :=
  .quoted c.field :: .sign c.comparison :: c.literal.lexemes

namespace Filter

/-- The lexemes of a side of a node, given those of the filter that stands there. -/
def operandLexemes (side : Filter) (lexemes : List Lexeme) : List Lexeme :=
  match side with
  | .binary _ _ _ => .opening :: lexemes ++ [.closing]
  | _ => lexemes

/-- **The lexemes of a filter** as it is written. -/
def lexemes : Filter → List Lexeme
  | .empty => []
  | .condition c => c.lexemes
  | .binary left connective right =>
    operandLexemes left left.lexemes ++ .word connective.text :: operandLexemes right right.lexemes

end Filter

/-! ### Steps of the scanner -/

namespace Token

/-- Nothing is scanned from nothing. -/
@[simp] theorem scan_nil (offset : Nat) : scan offset [] = .ok [] := by rw [scan]

/-- A blank is passed over. -/
theorem scan_blank {offset : Nat} {c : Char} {cs : List Char} (h : Text.isBlank c = true) :
    scan offset (c :: cs) = scan (offset + c.utf8Size) cs := by
  rw [scan, if_pos h]

/-- A lexeme makes a token, and scanning goes on behind it. -/
theorem scan_lexeme {offset : Nat} {c : Char} {cs : List Char} {r : Lexeme.Reading}
    (hb : Text.isBlank c = false) (hr : Lexeme.read c cs = .ok r) :
    scan offset (c :: cs) =
      (scan (offset + Text.width (c :: r.used)) r.rest).map (⟨r.lexeme, offset⟩ :: ·) := by
  rw [scan, if_neg (by simp [hb])]
  split
  · next fault hf => simp [hr] at hf
  · next r' hr' =>
    rw [hr] at hr'
    cases hr'
    rfl

end Token

/-- The width of characters put together. -/
@[simp] theorem Text.width_append (a b : List Char) : width (a ++ b) = width a + width b := by
  induction a with
  | nil => simp [width]
  | cons c a ih => simp only [List.cons_append, width, ih, Nat.add_assoc]

/-! ### Pieces of text -/

namespace Lexeme

/-- Characters that do **not go on with a word**. -/
def EndsWord (cs : List Char) : Prop := ∀ c ∈ cs.head?, isWordChar c = false

/-- Nothing goes on with no word. -/
@[simp] theorem endsWord_nil : EndsWord [] := by simp [EndsWord]

/-- What begins with a character that no word holds does not go on with a word. -/
@[simp] theorem endsWord_cons {c : Char} {cs : List Char} :
    EndsWord (c :: cs) ↔ isWordChar c = false := by simp [EndsWord]

/-- A word is cut where it ends. -/
theorem takeWhile_append {w rest : List Char} (hw : ∀ c ∈ w, isWordChar c = true)
    (hr : EndsWord rest) :
    (w ++ rest).takeWhile isWordChar = w ∧ (w ++ rest).dropWhile isWordChar = rest := by
  induction w with
  | nil =>
    cases rest with
    | nil => simp
    | cons c rest =>
      rw [endsWord_cons] at hr
      simp [hr]
  | cons c w ih =>
    have hc := hw c (by simp)
    have ih := ih fun x hx => hw x (by simp [hx])
    simp [hc, ih]

/-- A character of a word begins the lexeme of the word. -/
theorem read_word {c : Char} {w rest : List Char} (hw : ∀ x ∈ c :: w, isWordChar x = true)
    (hr : EndsWord rest) :
    read c (w ++ rest) = .ok ⟨ofWord (String.ofList (c :: w)), w, rest⟩ := by
  obtain ⟨hc, hw⟩ := List.forall_mem_cons.1 hw
  have hc : c ∉ marks := by
    simp only [isWordChar, Bool.and_eq_true, Bool.not_eq_true'] at hc
    simpa using hc.2
  obtain ⟨htake, hdrop⟩ := takeWhile_append hw hr
  -- in every case of `read` but the last the character is one of the marks
  unfold read
  split
  case h_14 => simp only [htake, hdrop]
  all_goals exact absurd (by decide) hc

/-- What stands in quotes is found again. -/
theorem splitQuoted_escape (cs rest : List Char) :
    splitQuoted (Filter.escape cs ++ '"' :: rest) = some (Filter.escape cs, rest) := by
  induction cs with
  | nil => simp [Filter.escape, splitQuoted]
  | cons c cs ih =>
    simp only [Filter.escape, List.flatMap_cons, List.append_assoc] at ih ⊢
    -- a quote or a backslash stands behind a backslash, any other character stands for itself
    by_cases hc : c = '"' ∨ c = '\\'
    · simp only [Filter.escapeChar, if_pos hc, List.cons_append, List.nil_append]
      rw [splitQuoted, ih]
      rfl
    · simp only [Filter.escapeChar, if_neg hc, List.cons_append, List.nil_append]
      rw [not_or] at hc
      rw [splitQuoted, ih]
      · rfl
      · exact hc.1
      · exact fun h => absurd h hc.2
      · exact fun x _ h => absurd h hc.2

/-- Undoing escapes gives the text back. -/
theorem unescape_escape (cs : List Char) : unescape (Filter.escape cs) = cs := by
  induction cs with
  | nil => rfl
  | cons c cs ih =>
    simp only [Filter.escape, List.flatMap_cons] at ih ⊢
    by_cases hc : c = '"' ∨ c = '\\'
    · simp only [Filter.escapeChar, if_pos hc, List.cons_append, List.nil_append, unescape, ih]
    · simp only [Filter.escapeChar, if_neg hc, List.cons_append, List.nil_append]
      rw [unescape, ih]
      intro x _ h
      exact absurd h (not_or.1 hc).2

/-! ### Written numbers

A number is written with digits and at most a sign, so it is a word, and not the word `IN`. -/

/-- A written integer holds digits and the minus sign only. -/
theorem mem_toString {z : Int} {c : Char} (h : c ∈ (toString z).toList) :
    c.isDigit = true ∨ c = '-' := by
  have digit {n : Nat} (h : c ∈ n.repr.toList) : c.isDigit = true := by
    rw [Nat.toList_repr] at h
    exact Nat.isDigit_of_mem_toDigits (by decide) (by decide) h
  rw [Int.toString_eq_repr, Int.repr_eq_if] at h
  split at h
  · exact .inl (digit h)
  · rw [String.toList_append, List.mem_append] at h
    rcases h with h | h
    · exact .inr (by simpa using h)
    · exact .inl (digit h)

/-- A written integer is not empty. -/
theorem toString_ne_nil (z : Int) : (toString z).toList ≠ [] := by
  rw [Int.toString_eq_repr, Int.repr_eq_if]
  split
  · rw [Nat.toList_repr]
    exact Nat.toDigits_ne_nil
  · simp

/-- Digits and the minus sign are characters of words. -/
theorem isWordChar_of_number {c : Char} (h : c.isDigit = true ∨ c = '-') :
    isWordChar c = true := by
  -- the blanks and the marks are few, and none of them is a digit or the minus sign
  have hall : (Text.blanks ++ marks).all (fun d => !d.isDigit && d != '-') = true := by decide
  have hc : c ∉ Text.blanks ++ marks := by
    intro hmem
    have hd := List.all_eq_true.1 hall c hmem
    rcases h with h | h
    · simp [h] at hd
    · simp [h] at hd
  rw [List.mem_append, not_or] at hc
  simp [isWordChar, Text.isBlank, hc]

/-- Digits and the minus sign have no case. -/
theorem toLower_of_number {c : Char} (h : c.isDigit = true ∨ c = '-') : c.toLower = c := by
  rcases h with h | rfl
  · simp only [Char.isDigit, Bool.and_eq_true, decide_eq_true_eq] at h
    -- digits come before the capital letters
    unfold Char.toLower
    rw [dif_neg]
    intro hc
    have h1 := hc.1
    have h2 := h.2
    simp only [UInt32.le_iff_toNat_le] at h1 h2
    revert h1 h2
    simp
    omega
  · decide

/-- A written integer is a plain word. -/
theorem ofWord_toString (z : Int) : ofWord (toString z) = .word (toString z) := by
  unfold ofWord
  rw [if_neg]
  intro h
  rw [Text.eqIgnoringCase_iff] at h
  -- the word `IN` has an `i`, and no character of a number is one
  have hmem : 'i' ∈ Text.fold (toString z) := by rw [h]; decide
  obtain ⟨c, hc, hi⟩ := List.mem_map.1 hmem
  have hn := mem_toString hc
  rw [toLower_of_number hn] at hi
  subst hi
  revert hn
  decide

end Lexeme

namespace Token

/-! ### Spelling -/

/-- Characters **spell** lexemes in front of certain characters: scanned there, they give tokens
with these lexemes, and scanning goes on behind them. -/
def Spells (before : List Char → Prop) (cs : List Char) (lexemes : List Lexeme) : Prop :=
  ∀ rest, before rest → ∀ offset, ∃ tokens, tokens.map Token.lexeme = lexemes ∧
    scan offset (cs ++ rest) = (scan (offset + Text.width cs) rest).map (tokens ++ ·)

/-- Characters that spell lexemes whatever comes behind them. -/
abbrev Delimited (cs : List Char) (lexemes : List Lexeme) : Prop :=
  Spells (fun _ => True) cs lexemes

/-- No tokens in front of those that are scanned leave them as they are. -/
theorem map_nil_append (scanned : Except FilterError (List Token)) :
    scanned.map ([] ++ ·) = scanned := by
  cases scanned <;> rfl

variable {p q : List Char → Prop} {a b : List Char} {la lb : List Lexeme}

/-- Pieces one behind the other spell their lexemes one behind the other. -/
theorem Spells.append (ha : Spells p a la) (hb : Spells q b lb)
    (hends : ∀ rest, q rest → p (b ++ rest)) : Spells q (a ++ b) (la ++ lb) := by
  intro rest hrest offset
  obtain ⟨ta, hta, hsa⟩ := ha (b ++ rest) (hends rest hrest) offset
  obtain ⟨tb, htb, hsb⟩ := hb rest hrest (offset + Text.width a)
  refine ⟨ta ++ tb, by rw [List.map_append, hta, htb], ?_⟩
  rw [List.append_assoc, hsa, hsb, Text.width_append, ← Nat.add_assoc]
  cases scan (offset + Text.width a + Text.width b) rest with
  | error e => rfl
  | ok tokens => simp [Except.map]

/-- A delimited piece spells its lexemes in front of anything. -/
theorem Delimited.weaken (h : Delimited a la) : Spells p a la := fun rest _ => h rest trivial

/-- What comes behind a delimited piece is free. -/
theorem Delimited.append (ha : Delimited a la) (hb : Spells q b lb) :
    Spells q (a ++ b) (la ++ lb) :=
  Spells.append ha hb fun _ _ => trivial

/-- A piece that ends where a word may go on is closed by a delimited one that begins with no
character of a word. -/
theorem Spells.close {c : Char} (ha : Spells Lexeme.EndsWord a la) (hb : Delimited (c :: b) lb)
    (hc : Lexeme.isWordChar c = false) : Delimited (a ++ c :: b) (la ++ lb) :=
  Spells.append ha hb fun _ _ => Lexeme.endsWord_cons.2 hc

/-- A lexeme that is read from the characters of a piece is spelled by it. -/
theorem Spells.single {c : Char} {cs : List Char} {l : Lexeme} (hb : Text.isBlank c = false)
    (hr : ∀ rest, p rest → Lexeme.read c (cs ++ rest) = .ok ⟨l, cs, rest⟩) :
    Spells p (c :: cs) [l] := by
  intro rest hrest offset
  exact ⟨[⟨l, offset⟩], rfl, by rw [List.cons_append, scan_lexeme hb (hr rest hrest)]; rfl⟩

namespace Delimited

/-- Nothing spells no lexemes. -/
theorem nil : Delimited [] [] := by
  intro rest _ offset
  exact ⟨[], rfl, (map_nil_append _).symm⟩

/-- A blank spells no lexeme. -/
theorem blank : Delimited [' '] [] := by
  intro rest _ offset
  refine ⟨[], rfl, ?_⟩
  rw [map_nil_append, List.singleton_append, scan_blank (by decide)]
  rfl

/-- An opening parenthesis. -/
theorem opening : Delimited ['('] [.opening] := .single (by decide) fun _ _ => rfl

/-- A closing parenthesis. -/
theorem closing : Delimited [')'] [.closing] := .single (by decide) fun _ _ => rfl

/-- A comma with a blank behind it. -/
theorem comma : Delimited [',', ' '] [.comma] :=
  append (a := [',']) (.single (by decide) fun _ _ => rfl) blank

/-- A text in quotes. -/
theorem quoted (s : String) : Delimited (Filter.quoted s).toList [.quoted s] := by
  rw [Filter.quoted, String.toList_ofList, List.cons_append]
  refine .single (by decide) fun rest _ => ?_
  rw [Lexeme.read, List.append_assoc, List.singleton_append, Lexeme.splitQuoted_escape]
  simp only [Lexeme.unescape_escape, String.ofList_toList]

end Delimited

/-- A bare word. -/
theorem Spells.word {w : String} (hne : w.toList ≠ [])
    (hw : ∀ c ∈ w.toList, Lexeme.isWordChar c = true) :
    Spells Lexeme.EndsWord w.toList [Lexeme.ofWord w] := by
  obtain ⟨c, cs, hcs⟩ := List.exists_cons_of_ne_nil hne
  rw [hcs] at hw ⊢
  refine .single ?_ fun rest hrest => ?_
  · have := hw c (by simp)
    simp only [Lexeme.isWordChar, Bool.and_eq_true, Bool.not_eq_true'] at this
    exact this.1
  · rw [Lexeme.read_word hw hrest, ← hcs, String.ofList_toList]

/-- The sign of a comparison spells it, unless a longer sign begins there. -/
theorem Spells.sign (c : Comparison) :
    Spells (fun rest => ∃ more, rest = ' ' :: more) c.text.toList [.sign c] := by
  cases c with
  | oneOf =>
    -- the only sign that is a word
    refine .single (by decide) ?_
    rintro _ ⟨more, rfl⟩
    exact Lexeme.read_word (c := 'I') (w := ['N']) (List.all_eq_true.1 (by decide))
      (by simp; decide)
  | _ =>
    refine .single (by decide) ?_
    rintro _ ⟨more, rfl⟩
    rfl

namespace Delimited

/-- The sign of a comparison with blanks around it. -/
theorem sign (c : Comparison) : Delimited (' ' :: c.text.toList ++ [' ']) [.sign c] :=
  append blank (Spells.append (.sign c) blank fun rest _ => ⟨rest, rfl⟩)

/-- The word of a connective with blanks around it. -/
theorem connective (c : Connective) :
    Delimited (' ' :: (c.text.toList ++ [' '])) [.word c.text] := by
  have hword : Spells Lexeme.EndsWord c.text.toList [.word c.text] := by
    cases c <;> exact .word (by decide) (List.all_eq_true.1 (by decide))
  exact append blank (hword.close blank (by decide))

/-- Items of a list, separated by commas. -/
theorem items (items : List String) :
    Delimited (", ".intercalate (items.map Filter.quoted)).toList
      ((items.map Lexeme.quoted).intersperse .comma) := by
  induction items with
  | nil => exact nil
  | cons s rest ih =>
    cases rest with
    | nil => exact quoted s
    | cons t rest =>
      rw [List.map_cons, List.map_cons, String.intercalate_cons_cons, String.toList_append,
        String.toList_append, List.append_assoc]
      exact append (quoted s) (append comma ih)

end Delimited

/-- A literal. -/
theorem Spells.literal (l : Literal) : Spells Lexeme.EndsWord l.written.toList l.lexemes := by
  cases l with
  | text s => exact (Delimited.quoted s).weaken
  | number n =>
    have h := word (Lexeme.toString_ne_nil n.toInt) fun c hc =>
      Lexeme.isWordChar_of_number (Lexeme.mem_toString hc)
    rwa [Lexeme.ofWord_toString] at h
  | bool b => cases b <;> exact word (by decide) (List.all_eq_true.1 (by decide))
  | list l =>
    rw [Literal.written, String.toList_append, String.toList_append, List.append_assoc]
    exact Delimited.opening.append ((Delimited.items l).append Delimited.closing.weaken)

/-- A condition. -/
theorem Spells.condition (c : Condition) : Spells Lexeme.EndsWord c.text.toList c.lexemes := by
  have hblank : " ".toList = [' '] := rfl
  have h := (Delimited.quoted c.field).append
    ((Delimited.sign c.comparison).append (literal c.literal))
  simpa only [Condition.text, Condition.lexemes, String.toList_append, hblank, List.append_assoc,
    List.cons_append, List.nil_append] using h

/-- A side of a node, given the spelling of the filter that stands there. -/
theorem Spells.operand {f : Filter} (h : Spells Lexeme.EndsWord f.text.toList f.lexemes) :
    Spells Lexeme.EndsWord (f.operandText f.text).toList (f.operandLexemes f.lexemes) := by
  cases f with
  | binary left connective right =>
    -- the only filter around which parentheses are written
    rw [Filter.operandText, String.toList_append, String.toList_append, List.append_assoc]
    exact Delimited.opening.append (h.close Delimited.closing (by decide)).weaken
  | _ => exact h

end Token

namespace Filter

/-- **The text of a filter spells its lexemes.** -/
theorem spells_text (f : Filter) : Token.Spells Lexeme.EndsWord f.text.toList f.lexemes := by
  induction f with
  | empty => exact Token.Delimited.nil.weaken
  | condition c => exact .condition c
  | binary left connective right ihl ihr =>
    have hblank : " ".toList = [' '] := rfl
    have h := (Token.Spells.operand ihl).close (Token.Delimited.connective connective) (by decide)
    have h := h.append (Token.Spells.operand ihr)
    simpa only [text, lexemes, String.toList_append, hblank, List.append_assoc, List.cons_append,
      List.nil_append] using h

/-- The tokens of the text of a filter have the lexemes of the filter. -/
theorem scan_text (f : Filter) :
    ∃ tokens, Token.scan 0 f.text.toList = .ok tokens ∧ tokens.map Token.lexeme = f.lexemes := by
  obtain ⟨tokens, htokens, hscan⟩ := f.spells_text [] (by simp) 0
  refine ⟨tokens, ?_, htokens⟩
  rw [List.append_nil, Token.scan_nil] at hscan
  simpa [Except.map] using hscan

end Filter

end ObjectMapping
