/-
# Blank characters

A character is blank when it has the Unicode property White_Space; there are 25 of them. Text is
trimmed and cut into words at blank characters only, so a no-break space separates words as a
plain space does.

Everything here works on lists of characters. `fields p` cuts a text at each character in `p`
and keeps the empty pieces; `words` drops them.
-/

namespace Bindery
namespace Text

/-- The characters with the property White_Space. -/
def isBlank (c : Char) : Bool :=
  let n := c.toNat
  (9 ≤ n && n ≤ 13) || n == 0x20 || n == 0x85 || n == 0xA0 || n == 0x1680 ||
    (0x2000 ≤ n && n ≤ 0x200A) || n == 0x2028 || n == 0x2029 || n == 0x202F || n == 0x205F ||
    n == 0x3000

/-- Drops characters in `p` from the end. -/
def dropEndWhile (p : Char → Bool) (cs : List Char) : List Char :=
  (cs.reverse.dropWhile p).reverse

/-- Drops the blank characters at the end. -/
def trimEnd (cs : List Char) : List Char := dropEndWhile isBlank cs

/-- Drops the blank characters at both ends. -/
def trim (cs : List Char) : List Char := trimEnd (cs.dropWhile isBlank)

/-- Puts a character in front of the first piece. -/
def consHead (c : Char) : List (List Char) → List (List Char)
  | [] => [[c]]
  | w :: ws => (c :: w) :: ws

/-- Cuts at every character in `p`; `n` cuts give `n + 1` pieces. -/
def fields (p : Char → Bool) : List Char → List (List Char)
  | [] => [[]]
  | c :: r => if p c then [] :: fields p r else consHead c (fields p r)

/-- The maximal runs of characters that are not blank, in order. -/
def words (cs : List Char) : List (List Char) := (fields isBlank cs).filter (· ≠ [])

/-- The rest after a leading `start`, if the text begins with it. -/
def afterStart? (start cs : List Char) : Option (List Char) :=
  if start.isPrefixOf cs then some (cs.drop start.length) else none

/-- The rest before a trailing `stop`, if the text ends with it. -/
def beforeEnd? (stop cs : List Char) : Option (List Char) :=
  if stop.isSuffixOf cs then some (cs.take (cs.length - stop.length)) else none

/-- Drops `stop` from the end as often as the text ends with it. -/
def withoutEnds (stop cs : List Char) : List Char :=
  if _h : stop ≠ [] ∧ stop.isSuffixOf cs = true then
    withoutEnds stop (cs.take (cs.length - stop.length))
  else cs
termination_by cs.length
decreasing_by
  have h := (List.isSuffixOf_iff_suffix.1 _h.2).length_le
  have := List.length_pos_iff.2 _h.1
  simp only [List.length_take]
  omega

/-- The words of a text joined by single spaces. -/
def collapse (s : String) : String :=
  " ".intercalate ((words s.toList).map String.ofList)

/-- Trims a string. -/
def strip (s : String) : String := String.ofList (trim s.toList)

/-- The words of a string. -/
def wordsOf (s : String) : List String := (words s.toList).map String.ofList

theorem length_dropEndWhile_le (p : Char → Bool) (cs : List Char) :
    (dropEndWhile p cs).length ≤ cs.length := by
  have h := (List.dropWhile_sublist p (l := cs.reverse)).length_le
  simpa [dropEndWhile] using h

theorem length_trim_le (cs : List Char) : (trim cs).length ≤ cs.length := by
  have h := length_dropEndWhile_le isBlank (cs.dropWhile isBlank)
  have h' := (List.dropWhile_sublist isBlank (l := cs)).length_le
  exact Nat.le_trans h h'

theorem length_le_of_mem_consHead {c : Char} {ps : List (List Char)} {n : Nat}
    (h : ∀ w ∈ ps, w.length ≤ n) : ∀ w ∈ consHead c ps, w.length ≤ n + 1 := by
  intro w hw
  cases ps with
  | nil => simp [consHead] at hw; subst hw; simp
  | cons v vs =>
    simp only [consHead, List.mem_cons] at hw
    rcases hw with rfl | hw
    · have := h v (by simp)
      simp; omega
    · have := h w (by simp [hw])
      omega

end Text
end Bindery
