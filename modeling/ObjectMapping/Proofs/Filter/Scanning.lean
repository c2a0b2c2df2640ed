import ObjectMapping.Proofs.Failure
import ObjectMapping.Proofs.Filter.Lexemes

/-! # The way of the scanner

The scanner goes through a text by blanks and lexemes. Where it comes to on the way, and over which
tokens, is a relation, by which it is told what the scanner gives: the tokens of the text when it
comes to the end, or a fault where it comes to what is no lexeme.

* **`Token.Scans`** — how the scanner comes from one place in a text to another.
* **`Token.scan_eq_ok_iff`**, **`Token.scan_eq_error_iff`** — what the scanner gives. -/

namespace ObjectMapping

namespace Token

/-- The scanner **comes** from characters at an offset to further ones, over tokens. -/
inductive Scans : Nat → List Char → List Token → Nat → List Char → Prop where
  /-- It stays where it is. -/
  | done {offset : Nat} {cs : List Char} : Scans offset cs [] offset cs
  /-- It passes a blank. -/
  | blank {offset offset' : Nat} {c : Char} {cs rest : List Char} {tokens : List Token}
      (hblank : Text.isBlank c = true) (h : Scans (offset + c.utf8Size) cs tokens offset' rest) :
      Scans offset (c :: cs) tokens offset' rest
  /-- It passes a lexeme, which makes a token. -/
  | lexeme {offset offset' : Nat} {c : Char} {cs rest : List Char} {r : Lexeme.Reading}
      {tokens : List Token} (hblank : Text.isBlank c = false) (hread : Lexeme.read c cs = .ok r)
      (h : Scans (offset + Text.width (c :: r.used)) r.rest tokens offset' rest) :
      Scans offset (c :: cs) (⟨r.lexeme, offset⟩ :: tokens) offset' rest

variable {offset offset' : Nat} {cs rest : List Char} {tokens : List Token}

/-- **The scanner counts what it passes.** -/
theorem Scans.exists_passed (h : Scans offset cs tokens offset' rest) :
    ∃ passed, cs = passed ++ rest ∧ offset' = offset + Text.width passed := by
  induction h with
  | done => exact ⟨[], rfl, rfl⟩
  | @blank offset offset' c cs rest tokens hblank _ ih =>
    obtain ⟨passed, rfl, rfl⟩ := ih
    exact ⟨c :: passed, rfl, Nat.add_assoc _ _ _⟩
  | @lexeme offset offset' c cs rest r tokens hblank hread _ ih =>
    obtain ⟨passed, hrest, rfl⟩ := ih
    refine ⟨c :: r.used ++ passed, ?_, ?_⟩
    · rw [← Lexeme.read_append hread, hrest, List.cons_append, List.cons_append, List.append_assoc]
    · rw [Text.width_append, Nat.add_assoc]

/-- The tokens on the way come before those of the rest. -/
theorem Scans.scan_eq (h : Scans offset cs tokens offset' rest) :
    scan offset cs = (scan offset' rest).map (tokens ++ ·) := by
  induction h with
  | done => exact (map_nil_append _).symm
  | blank hblank _ ih => rw [scan_blank hblank, ih]
  | @lexeme offset offset' c cs rest r tokens hblank hread _ ih =>
    rw [scan_lexeme hblank hread, ih]
    cases scan offset' rest <;> rfl

/-- **A text has tokens** when the scanner comes to its end over them. -/
theorem scan_eq_ok_iff :
    scan offset cs = .ok tokens ↔ ∃ offset', Scans offset cs tokens offset' [] := by
  constructor
  · intro h
    fun_induction scan offset cs generalizing tokens with
    | case1 offset =>
      cases h
      exact ⟨offset, .done⟩
    | case2 offset c cs hblank ih =>
      obtain ⟨offset', hscans⟩ := ih h
      exact ⟨offset', .blank hblank hscans⟩
    | case3 => cases h
    | case4 offset c cs hblank r hread hshorter ih =>
      obtain ⟨tokens, hrest, rfl⟩ := map_eq_ok_iff.1 h
      obtain ⟨offset', hscans⟩ := ih hrest
      exact ⟨offset', .lexeme (Bool.eq_false_iff.2 hblank) hread hscans⟩
  · rintro ⟨offset', h⟩
    rw [h.scan_eq, scan_nil]
    simp [Except.map]

/-- **A text has no tokens** when the scanner comes to what is no lexeme. -/
theorem scan_eq_error_iff {e : FilterError} :
    scan offset cs = .error e ↔ ∃ tokens c after, Scans offset cs tokens e.position (c :: after) ∧
      Text.isBlank c = false ∧ Lexeme.read c after = .error e.fault := by
  constructor
  · intro h
    fun_induction scan offset cs with
    | case1 => cases h
    | case2 offset c cs hblank ih =>
      obtain ⟨tokens, c', after, hscans, hfound⟩ := ih h
      exact ⟨tokens, c', after, .blank hblank hscans, hfound⟩
    | case3 offset c cs hblank fault hread =>
      cases h
      exact ⟨[], c, cs, .done, Bool.eq_false_iff.2 hblank, hread⟩
    | case4 offset c cs hblank r hread hshorter ih =>
      obtain ⟨tokens, c', after, hscans, hfound⟩ := ih (map_eq_error_iff.1 h)
      exact ⟨_, c', after, .lexeme (Bool.eq_false_iff.2 hblank) hread hscans, hfound⟩
  · rintro ⟨tokens, c, after, hscans, hblank, hread⟩
    have herror : scan e.position (c :: after) = .error e := by
      rw [scan, if_neg (Bool.eq_false_iff.1 hblank)]
      split
      · next fault hfault =>
        cases hread.symm.trans hfault
        rfl
      · next r hr => cases hread.symm.trans hr
    rw [hscans.scan_eq, herror]
    rfl

/-- The scanner comes to each token that it passes. -/
theorem Scans.exists_of_mem {t : Token} (h : Scans offset cs tokens offset' rest)
    (ht : t ∈ tokens) :
    ∃ before c after r, Scans offset cs before t.offset (c :: after) ∧ Text.isBlank c = false ∧
      Lexeme.read c after = .ok r ∧ r.lexeme = t.lexeme := by
  induction h with
  | done => cases ht
  | blank hblank _ ih =>
    obtain ⟨before, c, after, r, hscans, hfound⟩ := ih ht
    exact ⟨before, c, after, r, .blank hblank hscans, hfound⟩
  | @lexeme offset offset' c cs rest r tokens hblank hread _ ih =>
    obtain rfl | ht := List.mem_cons.1 ht
    · exact ⟨[], c, cs, r, .done, hblank, hread, rfl⟩
    · obtain ⟨before, c', after, r', hscans, hfound⟩ := ih ht
      exact ⟨_, c', after, r', .lexeme hblank hread hscans, hfound⟩

/-- The tokens on the way do not begin before it. -/
theorem Scans.le_offset_of_mem {t : Token} (h : Scans offset cs tokens offset' rest)
    (ht : t ∈ tokens) : offset ≤ t.offset := by
  obtain ⟨before, c, after, r, hscans, -⟩ := h.exists_of_mem ht
  obtain ⟨passed, -, hoffset⟩ := hscans.exists_passed
  rw [hoffset]
  exact Nat.le_add_right _ _

/-- Each token begins behind those before it. -/
theorem Scans.pairwise_offset (h : Scans offset cs tokens offset' rest) :
    tokens.Pairwise fun t u => t.offset < u.offset := by
  induction h with
  | done => exact List.Pairwise.nil
  | blank _ _ ih => exact ih
  | @lexeme offset offset' c cs rest r tokens _ _ h ih =>
    refine List.pairwise_cons.2 ⟨fun t ht => ?_, ih⟩
    have hle := h.le_offset_of_mem ht
    have hwidth := c.utf8Size_pos
    rw [Text.width] at hle
    show offset < t.offset
    omega

end Token

end ObjectMapping
