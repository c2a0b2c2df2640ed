import ObjectMapping.Proofs.Filter.Parsing
import ObjectMapping.Proofs.Filter.RoundTrip

/-! # What is read is well formed

Whatever the text, a filter that is read from it can be written again: it is the empty filter, and
then the text is blank, or it is full and not too deep. So the text of a filter that has been read
leads back to the filter.

A reader need not look at a tree to know how deep it is. It can keep count while it reads
(`CountingReader`): a condition is one level, a node is one more than the greater count of its
sides, and parentheses do not count. The count that such a reader keeps is the depth of the filter
that it gives (`Cursor.counts_filter`).

* **`Filter.readCounting_eq`** — reading with a count is reading, and the count is the depth.
* **`Grammar.Phrase.full_tree`** — what is derived is full.
* **`Filter.read_wellFormed`** — what is read is well formed. -/

namespace ObjectMapping

/-! ### Reading with a count -/

/-- A **reader that counts**: it gives a filter together with a count of its levels. -/
abbrev CountingReader := Cursor → Except FilterError ((Filter × Nat) × Cursor)

namespace Cursor

/-- One level more, unless that is one too many. -/
def deepen (c : Cursor) (levels : Nat) : Except FilterError Nat :=
  if Filter.depthLimit ≤ levels then .error ⟨c.offset, .tooDeep⟩ else .ok (levels + 1)

/-- An operand with its count: parentheses add nothing to it, and a condition counts for one. -/
def countingOperand (inner : CountingReader) (c : Cursor) :
    Except FilterError ((Filter × Nat) × Cursor) :=
  if c.lexeme? = some .opening then
    if c.opened = Filter.depthLimit then c.fail .tooDeep
    else do
      let (counted, c) ← inner c.entered
      let c : Cursor := { c with opened := c.opened - 1 }
      match c.lexeme? with
      | some .closing => return (counted, c.next)
      | _ => c.next.fail .noClosing
  else do
    let (f, c) ← c.condition
    return ((f, 1), c)

/-- The rest of a chain, given the filter so far with its count. -/
def countingChain (connective : Connective) (reader : CountingReader) :
    (rounds : Nat) → Filter × Nat → CountingReader
  | 0, left, c => .ok (left, c)
  | rounds + 1, left, c =>
    if c.isAt connective then do
      let (right, after) ← reader c.next
      let levels ← c.deepen (max left.2 right.2)
      countingChain connective reader rounds (.binary left.1 connective right.1, levels) after
    else .ok (left, c)

/-- A chain with its count. -/
def countingOperands (connective : Connective) (reader : CountingReader) (c : Cursor) :
    Except FilterError ((Filter × Nat) × Cursor) := do
  let (left, after) ← reader c
  countingChain connective reader after.rest.length left after

/-- A filter with its count. -/
def countingFilter : (room : Nat) → CountingReader
  | 0 => fun c => c.fail .tooDeep
  | room + 1 => countingOperands .or (countingOperands .and (countingOperand (countingFilter room)))

/-- What is read, with its depth. -/
def withDepth : Filter × Cursor → (Filter × Nat) × Cursor := fun (f, c) => ((f, f.depth), c)

/-- A reader **counts** for another one: it gives the same filters or the same faults, and its
counts are the depths. -/
def Counts (counting : CountingReader) (reader : FilterReader) : Prop :=
  ∀ c, counting c = (reader c).map withDepth

variable {counting : CountingReader} {reader : FilterReader}

/-- Operands are counted, if what stands in parentheses is. -/
theorem counts_operand (h : Counts counting reader) :
    Counts (countingOperand counting) (operand reader) := by
  intro c
  unfold countingOperand operand
  split
  · split
    · rfl
    · rw [h c.entered]
      show _ = Except.map withDepth (reader c.entered >>= _)
      cases reader c.entered with
      | error e => rfl
      | ok r =>
        -- behind the closing parenthesis the count is what it was in front of it
        dsimp only [withDepth, bind, Except.bind, Except.map]
        generalize Cursor.lexeme? _ = lexeme
        cases lexeme with
        | none => rfl
        | some l => cases l <;> rfl
  · cases hcondition : c.condition with
    | error e => rfl
    | ok r =>
      obtain ⟨f, after⟩ := r
      obtain ⟨clause, rfl, -⟩ := condition_eq_ok hcondition
      rfl

/-- The rest of a chain is counted, if the phrases that it joins are. -/
theorem countingChain_eq (h : Counts counting reader) (connective : Connective) (rounds : Nat)
    (left : Filter) (c : Cursor) :
    countingChain connective counting rounds (left, left.depth) c =
      (chain connective reader rounds left c).map withDepth := by
  -- the induction is on the rounds, each of which adds a node to the left
  induction rounds generalizing left c with
  | zero => rfl
  | succ rounds ih =>
    rw [countingChain, chain]
    split
    · rw [h c.next]
      cases reader c.next with
      | error e => rfl
      | ok r =>
        obtain ⟨right, after⟩ := r
        show (c.deepen (max left.depth right.depth) >>= _) =
          Except.map withDepth (c.node left connective right >>= _)
        unfold deepen node
        split
        · rfl
        · exact ih (.binary left connective right) after
    · rfl

/-- Chains are counted, if the phrases that they join are. -/
theorem counts_operands (h : Counts counting reader) (connective : Connective) :
    Counts (countingOperands connective counting) (operands connective reader) := by
  intro c
  unfold countingOperands operands
  rw [h c]
  cases reader c with
  | error e => rfl
  | ok r => exact countingChain_eq h connective r.2.rest.length r.1 r.2

/-- **The count that is kept while a filter is read is its depth.** -/
theorem counts_filter (room : Nat) : Counts (countingFilter room) (filter room) := by
  induction room with
  | zero => exact fun _ => rfl
  | succ room ih => exact counts_operands (counts_operands (counts_operand ih) .and) .or

end Cursor

namespace Filter

/-- The filter that a text writes, with the count of its levels that is kept on the way. -/
def readCounting (text : String) : Except FilterError (Filter × Nat) := do
  let tokens ← Token.scan 0 text.toList
  if tokens.isEmpty then .ok (.empty, 0)
  else do
    let (counted, c) ← (Cursor.start tokens).countingFilter (depthLimit + 1)
    match c.rest with
    | [] => return counted
    | t :: _ => .error ⟨t.offset, .trailing⟩

/-- **Reading with a count** is reading, and the count is the depth. -/
theorem readCounting_eq (text : String) :
    readCounting text = (read text).map fun f => (f, f.depth) := by
  unfold readCounting read
  cases Token.scan 0 text.toList with
  | error e => rfl
  | ok tokens =>
    show (if tokens.isEmpty then _ else _) = Except.map _ (ofTokens tokens)
    unfold ofTokens
    split
    · rfl
    · rw [Cursor.counts_filter (depthLimit + 1) (.start tokens)]
      cases (Cursor.start tokens).filter (depthLimit + 1) with
      | error e => rfl
      | ok r =>
        dsimp only [Cursor.withDepth, bind, Except.bind, Except.map]
        cases r.2.rest <;> rfl

end Filter

/-! ### What is derived is full -/

namespace Grammar

/-- A scalar stands for no list. -/
theorem Scalar.literal_ne_list (v : Scalar) (items : List String) : v.literal ≠ .list items := by
  obtain ⟨t, l, hl⟩ := v
  cases t with
  | quoted s =>
    obtain rfl : l = .text s := hl
    exact Literal.noConfusion
  | bare s =>
    cases (show ObjectMapping.StandsFor s l from hl) <;> exact Literal.noConfusion

/-- The comparison and the literal of a derived condition fit. -/
theorem Clause.fits_condition (clause : Clause) : clause.condition.Fits := by
  cases clause with
  | scalar name comparison hscalar value =>
    exact ⟨fun h => absurd h hscalar, fun ⟨items, h⟩ => absurd h (value.literal_ne_list items)⟩
  | list name items => exact ⟨fun _ => ⟨_, rfl⟩, fun _ => rfl⟩

mutual

/-- **The tree of a derivation is full.** -/
theorem Phrase.full_tree {level : Level} : (d : Phrase level) → d.tree.Full
  | .clause clause => clause.fits_condition
  | .group inner => inner.full_tree
  | .chain first rest => rest.full_tree first.full_tree

/-- The tree of a chain is full, if that of the phrases so far is. -/
theorem Tail.full_tree {connective : Connective} : (t : Tail connective) → {left : Filter} →
    left.Full → (t.tree left).Full
  | .done, _, hleft => hleft
  | .step _ next rest, _, hleft => rest.full_tree ⟨hleft, next.full_tree⟩

end

end Grammar

/-- A text has no tokens exactly when it is blank. -/
theorem Token.scan_eq_nil_iff {offset : Nat} {cs : List Char} :
    scan offset cs = .ok [] ↔ ∀ c ∈ cs, Text.isBlank c = true := by
  induction cs generalizing offset with
  | nil => simp
  | cons c cs ih =>
    cases hblank : Text.isBlank c with
    | true => rw [scan_blank hblank, ih, List.forall_mem_cons, hblank, eq_self_iff_true, true_and]
    | false =>
      -- a character that is not blank begins a token or is at fault
      refine ⟨fun h => ?_, fun h => ?_⟩
      · cases hread : Lexeme.read c cs with
        | error fault =>
          rw [scan, if_neg (by simp [hblank])] at h
          split at h
          · cases h
          · next hr => rw [hread] at hr; cases hr
        | ok r =>
          rw [scan_lexeme hblank hread] at h
          cases hrest : scan (offset + Text.width (c :: r.used)) r.rest with
          | error e => rw [hrest] at h; cases h
          | ok tokens => rw [hrest] at h; cases h
      · rw [h c List.mem_cons_self] at hblank
        cases hblank

namespace Filter

/-- A full filter is not empty. -/
theorem Full.ne_empty {f : Filter} (h : f.Full) : f ≠ .empty := by
  rintro rfl
  exact h

/-- What is read is the empty filter, from a blank text, or it is full and not too deep, from a text
that is not blank. -/
theorem of_read {text : String} {f : Filter} (h : read text = .ok f) :
    (f = .empty ∧ ∀ c ∈ text.toList, Text.isBlank c = true) ∨
      (f.Full ∧ f.depth ≤ depthLimit) ∧ ¬ ∀ c ∈ text.toList, Text.isBlank c = true := by
  obtain ⟨tokens, hscan, h⟩ := bind_eq_ok_iff.1 h
  by_cases hnil : tokens = []
  · subst hnil
    cases h
    exact .inl ⟨rfl, Token.scan_eq_nil_iff.1 hscan⟩
  · obtain ⟨d, -, -, rfl, hdepth⟩ := (ofTokens_eq_ok_iff hnil).1 h
    refine .inr ⟨⟨d.full_tree, hdepth⟩, fun hblank => hnil ?_⟩
    rw [Token.scan_eq_nil_iff.2 hblank] at hscan
    exact (Except.ok.inj hscan).symm

/-- What is read can be written. -/
theorem writable_of_read {text : String} {f : Filter} (h : read text = .ok f) : f.Writable :=
  (of_read h).imp And.left And.left

/-- A filter that can be written is read back from its text. -/
theorem Writable.read_text {f : Filter} (h : f.Writable) : read f.text = .ok f :=
  f.read_text.elim And.left fun hno => absurd h hno.2

/-- **Everything that is read is well formed.** A filter that is read from a text is empty exactly
when the text is blank. Otherwise no side of a node in it is empty, each of its conditions compares
by `IN` exactly when its literal is a list, and it is at most sixty-four levels deep, which is also
what a count of the levels comes to that is kept while reading. So its own text leads back to it,
and reading a text, writing what has been read and reading that is the same as reading the text. -/
theorem read_wellFormed (text : String) :
    (∀ f, read text = .ok f →
      (f = .empty ↔ ∀ c ∈ text.toList, Text.isBlank c = true) ∧
      (f ≠ .empty → f.Full ∧ f.depth ≤ 64) ∧
      read f.text = .ok f) ∧
    (∀ f levels, readCounting text = .ok (f, levels) ↔ read text = .ok f ∧ levels = f.depth) ∧
    (read text >>= fun f => read f.text) = read text := by
  refine ⟨fun f h => ⟨?_, fun hne => ?_, (writable_of_read h).read_text⟩, fun f levels => ?_, ?_⟩
  · obtain ⟨hempty, hblank⟩ | ⟨⟨hfull, -⟩, hblank⟩ := of_read h
    · exact iff_of_true hempty hblank
    · exact iff_of_false hfull.ne_empty hblank
  · exact (writable_of_read h).resolve_left hne
  · rw [readCounting_eq]
    cases read text with
    | error e => exact ⟨nofun, nofun⟩
    | ok g =>
      show Except.ok (g, g.depth) = .ok (f, levels) ↔ _
      simp only [Except.ok.injEq, Prod.mk.injEq]
      exact and_congr_right fun hg => by rw [hg, eq_comm]
  · cases h : read text with
    | error e => rfl
    | ok f => exact (writable_of_read h).read_text

/-- Of a text with needless parentheses and blanks the filter is read that is written without them.
The parentheses add nothing to the count of its levels. -/
theorem read_wellFormed_in_parentheses :
    ∃ (text : String) (f : Filter), read text = .ok f ∧ f ≠ .empty ∧ f.text ≠ text ∧
      (f.Full ∧ f.depth ≤ 64) ∧ readCounting text = .ok (f, 2) ∧ read f.text = .ok f := by
  let text := "((a = 1)) or  b in (x, \"y z\")"
  let f : Filter := .binary (equal "a" (.number 1)) .or (oneOf "b" ["x", "y z"])
  have hread : read text = .ok f := by decide +kernel
  obtain ⟨hf, hcount, -⟩ := read_wellFormed text
  obtain ⟨-, hfull, hagain⟩ := hf f hread
  have hlevels : readCounting text = .ok (f, 2) := (hcount f 2).2 ⟨hread, rfl⟩
  exact ⟨text, f, hread, by decide, by decide, hfull (by decide), hlevels, hagain⟩

end Filter

end ObjectMapping
