/-
# The normal form of a type name

A type name in normal form is left as it is by normalising again (`Spelling.normalize_normalize`):
the one blank that survives between two words is found there again.
-/

import Bindery.Cpp.Spelling

namespace Bindery
namespace Spelling

/-- Squeezing what has been squeezed behind the same character changes nothing. -/
theorem squeeze_squeeze (cs : List Char) (last : Option Char) (gap : Bool) :
    squeeze last false (squeeze last gap cs) = squeeze last gap cs := by
  induction cs generalizing last gap with
  | nil => rfl
  | cons c r ih =>
    by_cases hblank : Text.isBlank c
    · rw [squeeze, if_pos hblank]
      exact ih last true
    · rw [squeeze, if_neg hblank]
      by_cases hspace : (gap && last.any (!isPunct ·) && !isPunct c) = true
      · rw [if_pos hspace]
        simp only [Bool.and_eq_true] at hspace
        rw [squeeze, if_pos (by decide), squeeze, if_neg hblank,
          if_pos (by simp only [Bool.true_and, Bool.and_eq_true]; exact ⟨hspace.1.2, hspace.2⟩), ih]
      · rw [if_neg hspace, squeeze, if_neg hblank, if_neg (by simp), ih]

/-- **Normalising twice is normalising once.** -/
theorem normalize_normalize (name : String) : normalize (normalize name) = normalize name := by
  simp only [normalize, String.toList_ofList, squeeze_squeeze]

end Spelling
end Bindery
