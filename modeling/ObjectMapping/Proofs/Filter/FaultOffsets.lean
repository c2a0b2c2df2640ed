import ObjectMapping.Proofs.Filter.Progress

/-! # Offsets of faults

A fault in filter text is reported with an offset in bytes of the UTF-8 encoding. Whatever the text
is, it can be cut there: the scanner counts the bytes of what it has passed, and it reports where it
stands; the readers report the offset of a token, also at the end of the text.

* **`Token.StartsAt`** — what the scanner finds where it stands in front of something.
* **`Filter.startsAt_of_read_eq_error`** — the offset of a fault is that of a token, or of the quote
  or the exclamation mark at fault. -/

namespace ObjectMapping

/-- The width of characters is the size of the text that they make. -/
theorem Text.utf8ByteSize_ofList (cs : List Char) :
    (String.ofList cs).utf8ByteSize = Text.width cs := by
  induction cs with
  | nil => rfl
  | cons c cs ih =>
    rw [String.ofList_cons, String.utf8ByteSize_append, String.utf8ByteSize_singleton, ih]
    rfl

/-! ### Faults of lexemes -/

/-- Characters from one on are **refused** as a lexeme: a quote to which there is no closing one, or
an exclamation mark that begins no comparison. -/
inductive Lexeme.Refused : Char → List Char → FilterFault → Prop where
  /-- A quoted text has no end. -/
  | unterminated {cs : List Char} (h : splitQuoted cs = none) : Refused '"' cs .unterminated
  /-- An exclamation mark stands alone. -/
  | loneBang {cs : List Char} (h : ∀ c ∈ cs.head?, c ≠ '=' ∧ c ≠ '~') : Refused '!' cs .loneBang

/-- What is no lexeme is refused. -/
theorem Lexeme.refused_of_read {c : Char} {cs : List Char} {fault : FilterFault}
    (h : read c cs = .error fault) : Refused c cs fault := by
  unfold read at h
  split at h
  case h_8 cs hequal htilde =>
    cases h
    refine .loneBang fun c hc => ?_
    obtain ⟨rest, rfl⟩ := List.head?_eq_some_iff.1 hc
    exact ⟨fun h => hequal rest (h ▸ rfl), fun h => htilde rest (h ▸ rfl)⟩
  case h_13 cs =>
    split at h
    · cases h
    · next hsplit =>
      cases h
      exact .unterminated hsplit
  all_goals cases h

/-! ### Places where something starts -/

namespace Token

variable {offset : Nat} {tokens : List Token}

/-- Something **starts** at an offset in a text, with a character and those after it: the scanner
stands there, inside the text and between two of its characters, in front of one that is not
blank. -/
structure StartsAt (text : String) (offset : Nat) (c : Char) (after : List Char) : Prop where
  /-- The offset is inside the text. -/
  lt_utf8ByteSize : offset < text.utf8ByteSize
  /-- The text can be cut there. -/
  exists_splits : ∃ (p : text.Pos) (before : String), p.offset.byteIdx = offset ∧
    p.Splits before (String.ofList (c :: after))
  /-- The character is not blank. -/
  isBlank_eq_false : Text.isBlank c = false
  /-- The scanner comes to it. -/
  exists_scans : ∃ tokens, Scans 0 text.toList tokens offset (c :: after)

/-- **Where the scanner stands a text can be cut.** -/
theorem Scans.startsAt {text : String} {c : Char} {after : List Char}
    (h : Scans 0 text.toList tokens offset (c :: after)) (hblank : Text.isBlank c = false) :
    StartsAt text offset c after := by
  obtain ⟨passed, hpassed, hoffset⟩ := h.exists_passed
  rw [Nat.zero_add] at hoffset
  have htext : text = String.ofList passed ++ String.ofList (c :: after) := by
    rw [← String.ofList_append, ← hpassed, String.ofList_toList]
  have hsize : (String.ofList passed).utf8ByteSize = offset := by
    rw [Text.utf8ByteSize_ofList, hoffset]
  have hvalid : (String.Pos.Raw.mk offset).IsValid text :=
    String.Pos.Raw.isValid_iff_exists_append.2 ⟨_, _, htext, by rw [← hsize]; rfl⟩
  refine ⟨?_, ⟨⟨⟨offset⟩, hvalid⟩, String.ofList passed, rfl, htext, ?_⟩, hblank, ⟨tokens, h⟩⟩
  · have hpos := c.utf8Size_pos
    rw [htext, String.utf8ByteSize_append, hsize, Text.utf8ByteSize_ofList, Text.width]
    omega
  · show String.Pos.Raw.mk offset = _
    rw [← hsize]
    rfl

/-- **Each token of a text starts at its offset.** -/
theorem startsAt_of_mem {text : String} {t : Token} (h : scan 0 text.toList = .ok tokens)
    (ht : t ∈ tokens) :
    ∃ c after r, StartsAt text t.offset c after ∧ Lexeme.read c after = .ok r ∧
      r.lexeme = t.lexeme := by
  obtain ⟨offset', hscans⟩ := scan_eq_ok_iff.1 h
  obtain ⟨before, c, after, r, hscans, hblank, hread⟩ := hscans.exists_of_mem ht
  exact ⟨c, after, r, hscans.startsAt hblank, hread⟩

end Token

/-! ### Faults -/

namespace Filter

/-- **Tokens are refused at one of them.** -/
theorem exists_mem_of_ofTokens {tokens : List Token} {e : FilterError}
    (h : ofTokens tokens = .error e) : ∃ t ∈ tokens, e.position = t.offset := by
  cases tokens with
  | nil => cases h
  | cons t tokens =>
    rw [ofTokens, if_neg (by simp)] at h
    have hadvances := Cursor.advances_filter (depthLimit + 1) (.start (t :: tokens))
    obtain herror | ⟨⟨f, c⟩, hfilter, h⟩ := bind_eq_error_iff.1 h
    · rw [herror] at hadvances
      cases hadvances with
      | error hlocated =>
        obtain hmem | hlast := hlocated
        · exact hmem
        · -- at the end of the text the last token's offset is reported, and there is one
          refine ⟨(t :: tokens).getLast (List.cons_ne_nil _ _), List.getLast_mem _, ?_⟩
          rw [hlast, Cursor.start, List.getLast?_eq_some_getLast (List.cons_ne_nil _ _)]
          rfl
    · obtain ⟨passed, hrest, -⟩ := (hadvances.behind hfilter).exists_passed
      dsimp only at h
      split at h
      · cases h
      · next u more hmore =>
        cases h
        have hrest : t :: tokens = passed ++ u :: more := by
          rw [← hmore]
          exact hrest
        exact ⟨u, hrest ▸ List.mem_append_right passed List.mem_cons_self, rfl⟩

/-- **A text can be cut where a fault is reported.** Whatever the text and whatever the fault, its
offset is inside the text and between two characters, in front of one that is not blank; there a
token of the text starts, or else the quoted text without an end or the exclamation mark that stands
alone, which is then what the fault says. -/
theorem startsAt_of_read_eq_error {text : String} {e : FilterError} (h : read text = .error e) :
    ∃ c after, Token.StartsAt text e.position c after ∧
      ((∃ tokens t r, Token.scan 0 text.toList = .ok tokens ∧ t ∈ tokens ∧ t.offset = e.position ∧
          Lexeme.read c after = .ok r ∧ r.lexeme = t.lexeme) ∨
        Lexeme.Refused c after e.fault) := by
  obtain herror | ⟨tokens, hscan, herror⟩ := bind_eq_error_iff.1 h
  · obtain ⟨tokens, c, after, hscans, hblank, hread⟩ := Token.scan_eq_error_iff.1 herror
    exact ⟨c, after, hscans.startsAt hblank, .inr (Lexeme.refused_of_read hread)⟩
  · obtain ⟨t, ht, hposition⟩ := exists_mem_of_ofTokens herror
    obtain ⟨c, after, r, hstarts, hread, hlexeme⟩ := Token.startsAt_of_mem hscan ht
    rw [← hposition] at hstarts
    exact ⟨c, after, hstarts, .inl ⟨tokens, t, r, hscan, ht, hposition.symm, hread, hlexeme⟩⟩

/-- Behind two words with letters of two bytes each the sign at offset 7 is reported. -/
theorem startsAt_of_read_eq_error_behind_umlauts :
    read "ä  ö = 1" = .error ⟨7, .noComparison⟩ ∧
      ∃ c after, Token.StartsAt "ä  ö = 1" 7 c after ∧
        ((∃ tokens t r, Token.scan 0 "ä  ö = 1".toList = .ok tokens ∧ t ∈ tokens ∧ t.offset = 7 ∧
            Lexeme.read c after = .ok r ∧ r.lexeme = t.lexeme) ∨
          Lexeme.Refused c after .noComparison) := by
  have hread : read "ä  ö = 1" = .error ⟨7, .noComparison⟩ := by decide +kernel
  exact ⟨hread, startsAt_of_read_eq_error hread⟩

end Filter

end ObjectMapping
