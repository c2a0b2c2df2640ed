/-! # Comparison without regard to ASCII case

Keywords of filter text and the names in forbidden pairs are compared letter by letter, where the
case of the letters `A` to `Z` does not count and every other character stands for itself. -/

namespace ObjectMapping

/-- The text with the letters `A` to `Z` in lower case. -/
def Text.fold (s : String) : List Char := s.toList.map Char.toLower

/-- Whether two texts agree up to the case of ASCII letters. -/
def Text.eqIgnoringCase (s t : String) : Bool := Text.fold s == Text.fold t

/-- Agreement up to case is equality of the folded texts. -/
@[simp] theorem Text.eqIgnoringCase_iff (s t : String) :
    Text.eqIgnoringCase s t = true ↔ Text.fold s = Text.fold t := by
  simp [Text.eqIgnoringCase]

/-- A text agrees with itself. -/
theorem Text.eqIgnoringCase_refl (s : String) : Text.eqIgnoringCase s s = true := by simp

/-- Agreement up to case does not depend on the order of the two texts. -/
theorem Text.eqIgnoringCase_comm (s t : String) :
    Text.eqIgnoringCase s t = Text.eqIgnoringCase t s := by
  simp only [Text.eqIgnoringCase, Bool.beq_comm]

end ObjectMapping
