/-
# A text is its tokens with blanks between them

Blanks may stand before, between and behind the tokens of a text, and they have to stand between two
words. So a text can be cut where its tokens are cut, and put together again from parts:

| known of the tokens | known of the text |
| --- | --- |
| all of them | without its blanks it is nothing but the tokens (`flatten_tokensFrom`) |
| the first one | blanks, the token, and what is left for the others (`exists_of_tokens_cons`) |
| a first and a second part | two parts with these tokens (`exists_of_tokens_append`) |
| the last one | what is left for the others, the token, and blanks (`exists_of_tokens_concat`) |

Two parts that are put together keep their tokens unless a word would go on from the one to the
other (`Apart`, `tokensFrom_append`).
-/

import Bindery.Proofs.Cpp.Tokens
import Bindery.Proofs.Text.Ends
import Mathlib.Data.List.Basic

namespace Bindery
namespace Spelling

open Text

/-- Whether a character is part of a word. -/
def isWordPart (c : Char) : Bool := !isBlank c && !isPunct c

/-- No word goes on from the first text to the second. -/
def Apart (a b : List Char) : Prop :=
  ∀ x ∈ a.getLast?, ∀ y ∈ b.head?, ¬ (isWordPart x = true ∧ isWordPart y = true)

/-- A word, or one mark of punctuation. -/
inductive IsToken : List Char → Prop
  | word {w} (nonempty : w ≠ []) (parts : ∀ c ∈ w, isWordPart c = true) : IsToken w
  | mark {c} (punct : isPunct c = true) (visible : isBlank c = false) : IsToken [c]

theorem isWordPart_iff {c : Char} :
    isWordPart c = true ↔ ¬ isBlank c = true ∧ ¬ isPunct c = true := by
  simp [isWordPart]

theorem IsToken.ne_nil {t : List Char} (h : IsToken t) : t ≠ [] := by
  cases h with
  | word nonempty => exact nonempty
  | mark => exact List.cons_ne_nil _ _

theorem IsToken.visible {t : List Char} (h : IsToken t) : ∀ c ∈ t, isBlank c = false := by
  intro c hc
  cases h with
  | word _ parts => exact Bool.eq_false_iff.2 (isWordPart_iff.1 (parts c hc)).1
  | mark _ visible => exact List.mem_singleton.1 hc ▸ visible

/-- Without its blanks a text is nothing but its tokens. -/
theorem flatten_tokensFrom (cs word : List Char) :
    (tokensFrom word cs).flatten = word ++ cs.filter (!isBlank ·) := by
  have hended : ∀ w, (ended w).flatten = w := by
    intro w
    by_cases hw : w = [] <;> simp [ended, hw]
  induction cs generalizing word with
  | nil => rw [tokensFrom_nil, hended, List.filter_nil, List.append_nil]
  | cons c r ih =>
    by_cases hblank : isBlank c = true
    · rw [tokensFrom_blank hblank, List.flatten_append, hended, ih,
        List.filter_cons_of_neg (by simp [hblank]), List.nil_append]
    · rw [List.filter_cons_of_pos (by simp [hblank])]
      by_cases hpunct : isPunct c = true
      · rw [tokensFrom_punct hblank hpunct, List.flatten_append, hended, List.flatten_cons, ih]
        rfl
      · rw [tokensFrom_word hblank hpunct, ih, List.append_assoc, List.singleton_append]

/-! ### Putting texts together -/

/-- **Texts put together have the tokens of both,** if no word goes on from the one to the other.
Induction on the first text, with a word under way. -/
theorem tokensFrom_append {a b : List Char} (h : Apart a b) (word : List Char)
    (hword : a = [] → word = [] ∨ ∀ y ∈ b.head?, ¬ isWordPart y = true) :
    tokensFrom word (a ++ b) = tokensFrom word a ++ tokensFrom [] b := by
  induction a generalizing word with
  | nil =>
    rw [List.nil_append, tokensFrom_nil]
    rcases hword rfl with rfl | hhead
    · rfl
    · cases b with
      | nil => rw [tokensFrom_nil, tokensFrom_nil]; simp [ended]
      | cons c r =>
        have hc : ¬ isWordPart c = true := hhead c rfl
        by_cases hblank : isBlank c = true
        · rw [tokensFrom_blank hblank, tokensFrom_blank hblank]
          rfl
        · by_cases hpunct : isPunct c = true
          · rw [tokensFrom_punct hblank hpunct, tokensFrom_punct hblank hpunct]
            rfl
          · exact absurd (isWordPart_iff.2 ⟨hblank, hpunct⟩) hc
  | cons c r ih =>
    have hrest : Apart r b := by
      intro x hx
      refine h x ?_
      rw [List.getLast?_cons, Option.mem_def.1 hx]
      rfl
    rw [List.cons_append]
    by_cases hblank : isBlank c = true
    · rw [tokensFrom_blank hblank, tokensFrom_blank hblank, ih hrest [] fun _ => .inl rfl,
        List.append_assoc]
    · by_cases hpunct : isPunct c = true
      · rw [tokensFrom_punct hblank hpunct, tokensFrom_punct hblank hpunct,
          ih hrest [] fun _ => .inl rfl, List.append_assoc, List.cons_append]
      · rw [tokensFrom_word hblank hpunct, tokensFrom_word hblank hpunct, ih hrest]
        rintro rfl
        exact .inr fun y hy hpart => h c rfl y hy ⟨isWordPart_iff.2 ⟨hblank, hpunct⟩, hpart⟩

theorem tokensFrom_blanks {gap : List Char} (h : ∀ c ∈ gap, isBlank c = true) :
    tokensFrom [] gap = [] := by
  induction gap with
  | nil => rfl
  | cons c r ih =>
    obtain ⟨hc, hr⟩ := List.forall_mem_cons.1 h
    rw [tokensFrom_blank hc, ih hr]
    rfl

/-- Only blanks have no tokens. -/
theorem isBlank_of_tokensFrom_eq_nil {cs : List Char} (h : tokensFrom [] cs = []) :
    ∀ c ∈ cs, isBlank c = true := by
  have hflat := flatten_tokensFrom cs []
  rw [h] at hflat
  rw [List.flatten_nil, List.nil_append, eq_comm, List.filter_eq_nil_iff] at hflat
  simpa using hflat

/-- A word goes on under way. -/
theorem tokensFrom_parts {w : List Char} (h : ∀ c ∈ w, isWordPart c = true) (word : List Char) :
    tokensFrom word w = ended (word ++ w) := by
  induction w generalizing word with
  | nil => rw [tokensFrom_nil, List.append_nil]
  | cons c r ih =>
    obtain ⟨hc, hr⟩ := List.forall_mem_cons.1 h
    obtain ⟨hblank, hpunct⟩ := isWordPart_iff.1 hc
    rw [tokensFrom_word hblank hpunct, ih hr, List.append_assoc, List.singleton_append]

theorem IsToken.tokensFrom {t : List Char} (h : IsToken t) : tokensFrom [] t = [t] := by
  cases h with
  | word nonempty parts => rw [tokensFrom_parts parts, List.nil_append, ended, if_neg nonempty]
  | mark punct visible =>
    rw [tokensFrom_punct (Bool.eq_false_iff.1 visible) punct]
    rfl

/-- A token behind blanks, and what comes next. -/
theorem tokensFrom_token {gap t rest : List Char} (hgap : ∀ c ∈ gap, isBlank c = true)
    (ht : IsToken t) (hrest : Apart t rest) :
    tokensFrom [] (gap ++ (t ++ rest)) = t :: tokensFrom [] rest := by
  have hblank : Apart gap (t ++ rest) := by
    intro x hx y _ hparts
    exact (isWordPart_iff.1 hparts.1).1 (hgap x (List.mem_of_mem_getLast? hx))
  rw [tokensFrom_append hblank _ fun _ => .inl rfl, tokensFrom_blanks hgap, List.nil_append,
    tokensFrom_append hrest _ fun hnil => absurd hnil ht.ne_nil, ht.tokensFrom,
    List.singleton_append]

/-- A word is found at the start of a text exactly if the first token begins with it. -/
theorem IsToken.prefix_append_iff {t w rest : List Char} (ht : IsToken t) (hrest : Apart t rest)
    (hw : w ≠ []) (hparts : ∀ c ∈ w, isWordPart c = true) : w <+: t ++ rest ↔ w <+: t := by
  refine ⟨fun h => ?_, fun h => h.trans (List.prefix_append t rest)⟩
  rcases List.prefix_or_prefix_of_prefix h (List.prefix_append t rest) with hwt | ⟨more, rfl⟩
  · exact hwt
  · cases more with
    | nil => simp
    | cons c more =>
      -- The word would go on behind the token.
      have hnext : c ∈ rest.head? := by
        obtain ⟨more', h⟩ := h
        rw [List.append_assoc, List.append_cancel_left_eq] at h
        exact h ▸ rfl
      obtain ⟨x, hx⟩ : ∃ x, x ∈ t.getLast? :=
        ⟨_, List.getLast?_eq_some_getLast ht.ne_nil⟩
      have hxpart := hparts x (List.mem_append_left _ (List.mem_of_mem_getLast? hx))
      exact absurd ⟨hxpart, hparts c (by simp)⟩ (hrest x hx c hnext)

/-- A word is found at the start of a text, blanks aside, exactly if the first token begins with
it. -/
theorem IsToken.prefix_trim_iff {gap t rest w : List Char} (hgap : ∀ c ∈ gap, isBlank c = true)
    (ht : IsToken t) (hrest : Apart t rest) (hw : w ≠ [])
    (hparts : ∀ c ∈ w, isWordPart c = true) : w <+: trim (gap ++ (t ++ rest)) ↔ w <+: t := by
  have hstart : (gap ++ (t ++ rest)).dropWhile isBlank = t ++ rest := by
    rw [List.dropWhile_append_of_pos hgap]
    cases t with
    | nil => exact absurd rfl ht.ne_nil
    | cons c r =>
      exact List.dropWhile_cons_of_neg (Bool.eq_false_iff.1 (ht.visible c List.mem_cons_self))
  have hlast : ∀ c ∈ t.getLast?, isBlank c = false :=
    fun c hc => ht.visible c (List.mem_of_mem_getLast? hc)
  rw [trim, hstart, trimEnd, dropEndWhile_append_of_last hlast]
  refine ht.prefix_append_iff (fun x hx y hy => hrest x hx y ?_) hw hparts
  obtain ⟨more, hmore⟩ := dropEndWhile_prefix isBlank rest
  cases hkept : dropEndWhile isBlank rest with
  | nil =>
    rw [hkept] at hy
    exact absurd hy (Option.not_mem_none y)
  | cons c r =>
    rw [hkept] at hy hmore
    rw [← hmore]
    exact hy

/-! ### Cutting a text -/

/-- A word under way goes as far as characters of words do. -/
theorem exists_of_word {cs word t : List Char} {ts : List (List Char)} (hword : word ≠ [])
    (h : tokensFrom word cs = t :: ts) :
    ∃ more rest, cs = more ++ rest ∧ t = word ++ more ∧ (∀ c ∈ more, isWordPart c = true) ∧
      (∀ y ∈ rest.head?, ¬ isWordPart y = true) ∧ tokensFrom [] rest = ts := by
  have hended : ended word = [word] := if_neg hword
  induction cs generalizing word with
  | nil =>
    rw [tokensFrom_nil, hended] at h
    obtain ⟨rfl, rfl⟩ := List.cons.inj h
    exact ⟨[], [], rfl, (List.append_nil _).symm, nofun, nofun, rfl⟩
  | cons c r ih =>
    by_cases hblank : isBlank c = true
    · rw [tokensFrom_blank hblank, hended] at h
      obtain ⟨rfl, hrest⟩ := List.cons.inj h
      refine ⟨[], c :: r, rfl, (List.append_nil _).symm, nofun, ?_, ?_⟩
      · rintro y ⟨⟩ hpart
        exact (isWordPart_iff.1 hpart).1 hblank
      · rw [tokensFrom_blank hblank]
        exact hrest
    · by_cases hpunct : isPunct c = true
      · rw [tokensFrom_punct hblank hpunct, hended] at h
        obtain ⟨rfl, hrest⟩ := List.cons.inj h
        refine ⟨[], c :: r, rfl, (List.append_nil _).symm, nofun, ?_, ?_⟩
        · rintro y ⟨⟩ hpart
          exact (isWordPart_iff.1 hpart).2 hpunct
        · rw [tokensFrom_punct hblank hpunct]
          exact hrest
      · rw [tokensFrom_word hblank hpunct] at h
        have hnext : word ++ [c] ≠ [] := by simp
        obtain ⟨more, rest, rfl, rfl, hmore, hhead, hrest⟩ := ih hnext h (if_neg hnext)
        refine ⟨c :: more, rest, rfl, by simp, ?_, hhead, hrest⟩
        exact List.forall_mem_cons.2 ⟨isWordPart_iff.2 ⟨hblank, hpunct⟩, hmore⟩

/-- **The first token** stands behind blanks, and the others are those of the rest. -/
theorem exists_of_tokens_cons {cs t : List Char} {ts : List (List Char)}
    (h : tokensFrom [] cs = t :: ts) :
    ∃ gap rest, cs = gap ++ (t ++ rest) ∧ (∀ c ∈ gap, isBlank c = true) ∧ IsToken t ∧
      Apart t rest ∧ tokensFrom [] rest = ts := by
  induction cs with
  | nil => exact absurd h nofun
  | cons c r ih =>
    by_cases hblank : isBlank c = true
    · rw [tokensFrom_blank hblank] at h
      obtain ⟨gap, rest, rfl, hgap, htoken⟩ := ih h
      exact ⟨c :: gap, rest, rfl, List.forall_mem_cons.2 ⟨hblank, hgap⟩, htoken⟩
    · by_cases hpunct : isPunct c = true
      · rw [tokensFrom_punct hblank hpunct] at h
        obtain ⟨rfl, rfl⟩ := List.cons.inj h
        refine ⟨[], r, rfl, nofun, .mark hpunct (Bool.eq_false_iff.2 hblank), ?_, rfl⟩
        rintro x ⟨⟩ y - hparts
        exact (isWordPart_iff.1 hparts.1).2 hpunct
      · rw [tokensFrom_word hblank hpunct] at h
        have hpart := isWordPart_iff.2 ⟨hblank, hpunct⟩
        obtain ⟨more, rest, rfl, rfl, hmore, hhead, hrest⟩ :=
          exists_of_word (List.cons_ne_nil c []) h
        refine ⟨[], rest, rfl, nofun, .word (by simp) ?_, ?_, hrest⟩
        · exact List.forall_mem_cons.2 ⟨hpart, hmore⟩
        · exact fun _ _ y hy hparts => hhead y hy hparts.2

/-- **A text can be cut where its tokens are cut.** Induction on the first part of the tokens. -/
theorem exists_of_tokens_append {cs : List Char} {ts us : List (List Char)}
    (h : tokensFrom [] cs = ts ++ us) :
    ∃ a b, cs = a ++ b ∧ Apart a b ∧ tokensFrom [] a = ts ∧ tokensFrom [] b = us := by
  induction ts generalizing cs with
  | nil => exact ⟨[], cs, rfl, nofun, rfl, h⟩
  | cons t ts ih =>
    obtain ⟨gap, rest, rfl, hgap, ht, hrest, htokens⟩ := exists_of_tokens_cons h
    obtain ⟨a, b, rfl, hab, ha, hb⟩ := ih htokens
    refine ⟨gap ++ (t ++ a), b, by simp, ?_, ?_, hb⟩
    · cases a with
      | nil =>
        intro x hx
        refine hrest x ?_
        rwa [List.append_nil, List.getLast?_append_of_ne_nil _ ht.ne_nil] at hx
      | cons c r =>
        intro x hx
        refine hab x ?_
        rwa [← List.append_assoc, List.getLast?_append_of_ne_nil _ (List.cons_ne_nil c r)] at hx
    · have hstart : Apart t a := by
        intro x hx y hy
        refine hrest x hx y ?_
        cases a with
        | nil => exact absurd hy nofun
        | cons c r => exact hy
      rw [tokensFrom_token hgap ht hstart, ha]

/-- **The last token** stands before blanks, and no word goes on into it. -/
theorem exists_of_tokens_concat {cs t : List Char} {ts : List (List Char)}
    (h : tokensFrom [] cs = ts ++ [t]) :
    ∃ before gap, cs = before ++ (t ++ gap) ∧ (∀ c ∈ gap, isBlank c = true) ∧ IsToken t ∧
      Apart before t ∧ tokensFrom [] before = ts := by
  obtain ⟨a, b, rfl, hab, ha, hb⟩ := exists_of_tokens_append h
  obtain ⟨gap, rest, rfl, hgap, ht, -, hrest⟩ := exists_of_tokens_cons hb
  have hgapped : Apart a gap := by
    intro x _ y hy hparts
    exact (isWordPart_iff.1 hparts.2).1 (hgap y (List.mem_of_mem_head? hy))
  refine ⟨a ++ gap, rest, by simp, isBlank_of_tokensFrom_eq_nil hrest, ht, ?_, ?_⟩
  · cases gap with
    | nil =>
      intro x hx y hy
      rw [List.append_nil] at hx
      refine hab x hx y ?_
      rw [List.nil_append]
      cases t with
      | nil => exact absurd rfl ht.ne_nil
      | cons c r => exact hy
    | cons c r =>
      intro x hx y _ hparts
      rw [List.getLast?_append_of_ne_nil _ (List.cons_ne_nil c r)] at hx
      exact (isWordPart_iff.1 hparts.1).1 (hgap x (List.mem_of_mem_getLast? hx))
  · rw [tokensFrom_append hgapped _ fun _ => .inl rfl, ha, tokensFrom_blanks hgap, List.append_nil]

end Spelling
end Bindery
