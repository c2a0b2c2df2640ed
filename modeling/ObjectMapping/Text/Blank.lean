/-! # Blank characters

Which characters separate words in filter text and may not stand inside a type name: the ones with
the white-space property of the character standard, twenty-five in all. -/

namespace ObjectMapping

/-- The characters with the white-space property. -/
def Text.blanks : List Char :=
  ['\x09', '\x0A', '\x0B', '\x0C', '\x0D', ' ', '\u0085', '\u00A0', '\u1680', '\u2000', '\u2001',
   '\u2002', '\u2003', '\u2004', '\u2005', '\u2006', '\u2007', '\u2008', '\u2009', '\u200A',
   '\u2028', '\u2029', '\u202F', '\u205F', '\u3000']

/-- Whether a character is blank. -/
def Text.isBlank (c : Char) : Bool := Text.blanks.contains c

/-- A character is blank exactly when it is listed. -/
theorem Text.isBlank_iff (c : Char) : Text.isBlank c = true ↔ c ∈ Text.blanks := by
  simp [Text.isBlank]

/-- Every character that the core library calls white space is blank. -/
theorem Text.isBlank_of_isWhitespace (c : Char) (h : c.isWhitespace = true) :
    Text.isBlank c = true := by
  simp only [Char.isWhitespace, Bool.or_eq_true, decide_eq_true_eq] at h
  rcases h with ((h | h) | h) | h <;> subst h <;> decide

end ObjectMapping
