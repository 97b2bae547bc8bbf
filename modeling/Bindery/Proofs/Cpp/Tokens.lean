/-
# The tokens of a type name

The scan that normalises a type name keeps two things in mind: the character written last, and
whether blanks were left out behind it. The scan for tokens keeps the word under way. They stay in
step: a word is under way exactly if the character written last belongs to a word and no blanks were
left out since.

| next | tokens | normal form |
| --- | --- | --- |
| a blank | the word ends | nothing is written |
| punctuation | the word ends, and so does this token | it is written |
| another character, word under way | the word goes on | it is written |
| another character, no word under way | a word starts | written, behind a space if another word ended |

So the normal form has the tokens of the name (`tokens_normalize`), and it is nothing but these
tokens, with a space between two words (`normalize_eq_glue`). Two names have one normal form if and
only if they have the same tokens (`normalize_eq_iff`).
-/

import Bindery.Cpp.Spelling

namespace Bindery
namespace Spelling

/-- Whether a character belongs to a word, if there is one. -/
def inWord (c : Option Char) : Bool := c.any (!isPunct ·)

/-- The word under way as a token, unless there is none. -/
def ended (word : List Char) : List (List Char) := if word = [] then [] else [word]

theorem tokensFrom_nil (word : List Char) : tokensFrom word [] = ended word := rfl

theorem tokensFrom_blank {c : Char} (h : Text.isBlank c = true) (word r : List Char) :
    tokensFrom word (c :: r) = ended word ++ tokensFrom [] r := by
  rw [tokensFrom, if_pos h]
  rfl

theorem tokensFrom_punct {c : Char} (hblank : ¬ Text.isBlank c = true) (h : isPunct c = true)
    (word r : List Char) : tokensFrom word (c :: r) = ended word ++ [c] :: tokensFrom [] r := by
  rw [tokensFrom, if_neg hblank, if_pos h]
  rfl

theorem tokensFrom_word {c : Char} (hblank : ¬ Text.isBlank c = true) (h : ¬ isPunct c = true)
    (word r : List Char) : tokensFrom word (c :: r) = tokensFrom (word ++ [c]) r := by
  rw [tokensFrom, if_neg hblank, if_neg h]

theorem squeeze_blank {c : Char} (h : Text.isBlank c = true) (last : Option Char) (gap : Bool)
    (r : List Char) : squeeze last gap (c :: r) = squeeze last true r := by
  rw [squeeze, if_pos h]

/-- A character that is no blank is written, behind a space if it would join two words. -/
theorem squeeze_cons {c : Char} (h : ¬ Text.isBlank c = true) (last : Option Char) (gap : Bool)
    (r : List Char) : squeeze last gap (c :: r) =
      (if gap && inWord last && !isPunct c then [' ', c] else [c]) ++
        squeeze (some c) false r := by
  rw [squeeze, if_neg h, inWord]
  split <;> rfl

/-- Scanning for tokens what is written gives the tokens of the name. Induction on the rest of the
name, with the two scans in step. -/
theorem tokensFrom_squeeze (cs : List Char) (last : Option Char) (gap : Bool) (word : List Char)
    (hstep : word = [] ↔ inWord last = false) :
    tokensFrom word (squeeze last gap cs) =
      if gap then ended word ++ tokensFrom [] cs else tokensFrom word cs := by
  induction cs generalizing last gap word with
  | nil =>
    rw [squeeze, tokensFrom_nil, tokensFrom_nil]
    cases gap <;> simp [ended]
  | cons c r ih =>
    by_cases hblank : Text.isBlank c = true
    · rw [squeeze_blank hblank, ih last true word hstep, if_pos rfl, tokensFrom_blank hblank,
        tokensFrom_blank hblank]
      cases gap <;> simp [ended]
    · by_cases hpunct : isPunct c = true
      · have hafter : ([] : List Char) = [] ↔ inWord (some c) = false := by simp [inWord, hpunct]
        have hwritten : squeeze last gap (c :: r) = c :: squeeze (some c) false r := by
          simp [squeeze_cons hblank, hpunct]
        rw [hwritten, tokensFrom_punct hblank hpunct, ih _ _ _ hafter,
          tokensFrom_punct hblank hpunct, tokensFrom_punct hblank hpunct]
        cases gap <;> simp [ended]
      · have hafter : ∀ w : List Char, w ++ [c] = [] ↔ inWord (some c) = false := by
          simp [inWord, hpunct]
        have hword : ∀ w, tokensFrom w (c :: squeeze (some c) false r) = tokensFrom w (c :: r) := by
          intro w
          rw [tokensFrom_word hblank hpunct, ih _ _ _ (hafter w), tokensFrom_word hblank hpunct]
          rfl
        rw [squeeze_cons hblank]
        cases gap with
        | false => exact hword word
        | true =>
          cases hlast : inWord last with
          | false =>
            obtain rfl := hstep.2 hlast
            exact hword []
          | true =>
            rw [if_pos (by simp [hpunct]), if_pos rfl, ← hword]
            exact tokensFrom_blank (by decide) word _

/-- **The normal form has the tokens of the name.** -/
theorem tokens_normalize (name : String) : tokens (normalize name) = tokens name := by
  rw [tokens, normalize, String.toList_ofList, tokensFrom_squeeze _ _ _ _ (by simp [inWord])]
  rfl

/-- Tokens one behind the other, with a space between two words. `last` is what stands before. -/
def glue (last : Option Char) : List (List Char) → List Char
  | [] => []
  | w :: ws => (if inWord last && inWord w.head? then ' ' :: w else w) ++ glue w.getLast? ws

/-- What is written of a name is its tokens. A word under way is written already, and what is
written from there on goes on behind it. Induction on the rest of the name. -/
theorem glue_tokensFrom (cs : List Char) :
    (∀ last gap, gap = true ∨ inWord last = false →
      glue last (tokensFrom [] cs) = squeeze last gap cs) ∧
    ∀ before w x, isPunct x = false →
      glue before (tokensFrom (w ++ [x]) cs) =
        glue before [w ++ [x]] ++ squeeze (some x) false cs := by
  induction cs with
  | nil =>
    refine ⟨fun last gap _ => rfl, fun before w x _ => ?_⟩
    rw [tokensFrom_nil, ended, if_neg (by simp), squeeze, List.append_nil]
  | cons c r ih =>
    obtain ⟨ihgap, ihword⟩ := ih
    have hends : ∀ before w x ts, glue before ((w ++ [x]) :: ts) =
        glue before [w ++ [x]] ++ glue (some x) ts := by
      intro before w x ts
      simp [glue]
    by_cases hblank : Text.isBlank c = true
    · refine ⟨fun last gap _ => ?_, fun before w x _ => ?_⟩
      · rw [squeeze_blank hblank, tokensFrom_blank hblank]
        exact ihgap last true (.inl rfl)
      · rw [squeeze_blank hblank, tokensFrom_blank hblank, ended, if_neg (by simp),
          List.singleton_append, hends, ihgap (some x) true (.inl rfl)]
    · by_cases hpunct : isPunct c = true
      · have hc : inWord (some c) = false := by simp [inWord, hpunct]
        have hnext : ∀ last gap,
            glue last ([c] :: tokensFrom [] r) = squeeze last gap (c :: r) := by
          intro last gap
          rw [squeeze_cons hblank, ← ihgap (some c) false (.inr hc)]
          simp [glue, hc, hpunct]
        refine ⟨fun last gap _ => ?_, fun before w x _ => ?_⟩
        · rw [tokensFrom_punct hblank hpunct]
          exact hnext last gap
        · rw [tokensFrom_punct hblank hpunct, ended, if_neg (by simp), List.singleton_append, hends,
            hnext (some x) false]
      · have hc : isPunct c = false := Bool.eq_false_iff.2 hpunct
        refine ⟨fun last gap hgap => ?_, fun before w x hx => ?_⟩
        · rw [tokensFrom_word hblank hpunct, ihword last [] c hc, squeeze_cons hblank]
          congr 1
          rcases hgap with rfl | hlast
          · simp [glue, inWord, hc]
          · simp [glue, hlast]
        · rw [tokensFrom_word hblank hpunct, ihword before (w ++ [x]) c hc, squeeze_cons hblank]
          have hgoes : glue before [w ++ [x] ++ [c]] = glue before [w ++ [x]] ++ [c] := by
            have hhead : (w ++ [x] ++ [c]).head? = (w ++ [x]).head? := by cases w <;> rfl
            simp only [glue, hhead, List.append_nil]
            split <;> rfl
          rw [hgoes, List.append_assoc]
          rfl

/-- **A normal form is its tokens,** with a space between two words. -/
theorem normalize_eq_glue (name : String) :
    normalize name = String.ofList (glue none (tokens name)) := by
  rw [normalize, tokens, (glue_tokensFrom name.toList).1 none false (.inr rfl)]

/-- **Names with the same tokens, and no others, have one normal form.** -/
theorem normalize_eq_iff (s t : String) : normalize s = normalize t ↔ tokens s = tokens t := by
  constructor
  · intro h
    rw [← tokens_normalize s, h, tokens_normalize t]
  · intro h
    rw [normalize_eq_glue s, h, ← normalize_eq_glue t]

end Spelling
end Bindery
