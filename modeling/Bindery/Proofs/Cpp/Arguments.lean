/-
# Reading a template instance back

A template instance is written as a name, `<`, the arguments with commas between them, and `>`. It
is read in three steps, and each undoes one step of writing:

| step | undoes | because |
| --- | --- | --- |
| normal form | blanks between the tokens | a text without blanks is in normal form (`squeeze_of_tight`) |
| what stands between two ends | name and brackets | whatever stands there is found (`between?_append`) |
| parts between open commas | the list of arguments | an argument holds no open comma (`arguments_join`) |

An argument may be empty, unless it is the last: `<,M>` has two arguments, `<M,>` has one.
-/

import Bindery.Cpp.View
import Bindery.Proofs.Cpp.Nesting
import Bindery.Proofs.Text.Ends

namespace Bindery
namespace Spelling

open Text

/-! ### Normal forms -/

/-- A text without blanks is written as it is. -/
theorem squeeze_of_tight {cs : List Char} (h : Tight cs) (last : Option Char) :
    squeeze last false cs = cs := by
  induction cs generalizing last with
  | nil => rfl
  | cons c r ih =>
    have hc : ¬ isBlank c = true := Bool.eq_false_iff.1 (h c (List.mem_cons_self ..))
    rw [squeeze, if_neg hc, if_neg (by simp), ih fun d hd => h d (List.mem_cons_of_mem c hd)]

/-- What follows a character that is no blank is written without regard to what stands before. -/
theorem squeeze_append_cons (p : List Char) {x : Char} (hx : isBlank x = false) (q : List Char)
    (last : Option Char) (gap : Bool) :
    squeeze last gap (p ++ x :: q) = squeeze last gap (p ++ [x]) ++ squeeze (some x) false q := by
  have hx : ¬ isBlank x = true := Bool.eq_false_iff.1 hx
  induction p generalizing last gap with
  | nil =>
    simp only [List.nil_append, squeeze, if_neg hx]
    split <;> rfl
  | cons c p ih =>
    simp only [List.cons_append, squeeze, ih]
    split
    · rfl
    · split <;> rfl

/-! ### Groups -/

/-- A text without brackets is balanced. -/
theorem balanced_of_weight {cs : List Char} (h : ∀ c ∈ cs, weight c = 0) : Balanced cs := by
  induction cs with
  | nil => exact balanced_nil
  | cons c r ih =>
    exact (ih fun d hd => h d (List.mem_cons_of_mem c hd)).cons (h c (List.mem_cons_self ..))

/-- A text without punctuation. -/
def Wordy (cs : List Char) : Prop := ∀ c ∈ cs, isPunct c = false

instance (cs : List Char) : Decidable (Wordy cs) :=
  decidable_of_iff (cs.all (!isPunct ·) = true) (by simp [Wordy])

theorem Wordy.not_mem {cs : List Char} (h : Wordy cs) {mark : Char} (hmark : isPunct mark = true) :
    mark ∉ cs :=
  fun hmem => Bool.false_ne_true ((h mark hmem).symm.trans hmark)

theorem Wordy.weight {cs : List Char} (h : Wordy cs) : ∀ c ∈ cs, weight c = 0 := by
  intro c hc
  have hne : ∀ mark, isPunct mark = true → c ≠ mark := by
    rintro mark hmark rfl
    exact h.not_mem hmark hc
  rw [Spelling.weight, if_neg (not_or.2 ⟨hne '<' rfl, hne '(' rfl⟩),
    if_neg (not_or.2 ⟨hne '>' rfl, hne ')' rfl⟩)]

theorem encloses_of_not_mem {mark : Char} {cs : List Char} (h : mark ∉ cs) : Encloses mark cs := by
  rintro p r rfl
  exact absurd (List.mem_append_right p (List.mem_cons_self ..)) h

theorem Encloses.append {mark : Char} {p q : List Char} (hp : Encloses mark p)
    (hclosed : level p = 0) (hq : Encloses mark q) : Encloses mark (p ++ q) := by
  intro u r h
  rcases List.append_eq_append_iff.1 h with ⟨t, rfl, ht⟩ | ⟨t, rfl, ht⟩
  · rw [level_append, hclosed, Int.zero_add]
    exact hq t r ht
  · cases t with
    | nil => exact absurd level_nil (hq [] r ht.symm)
    | cons c t =>
      obtain rfl := (List.cons.inj ht).1
      exact hp u t rfl

/-- A balanced text in angle brackets. -/
def group (cs : List Char) : List Char := '<' :: (cs ++ ['>'])

theorem level_pos_of_prefix_group {cs p : List Char} (h : Balanced cs) (hp : p ≠ [])
    (hlt : p.length < (group cs).length) (hpre : p <+: group cs) : 0 < level p := by
  rcases List.prefix_cons_iff.1 hpre with rfl | ⟨u, rfl, hu⟩
  · exact absurd rfl hp
  · have hshort : u <+: cs := by
      refine List.prefix_of_prefix_length_le hu (List.prefix_append cs ['>']) ?_
      simp only [group, List.length_cons, List.length_append, List.length_nil] at hlt
      omega
    have hlow := h.nonneg u hshort
    have hopen : weight '<' = 1 := by decide
    rw [level_cons, hopen]
    omega

theorem Balanced.group {cs : List Char} (h : Balanced cs) : Balanced (group cs) := by
  have hclosed : level (Spelling.group cs) = 0 := by
    rw [Spelling.group, level_cons, level_append, h.closed]
    decide
  refine ⟨fun p hp => ?_, hclosed⟩
  by_cases hnil : p = []
  · exact Int.le_of_eq (by rw [hnil, level_nil])
  · rcases Nat.lt_or_ge p.length (Spelling.group cs).length with hlt | hge
    · exact Int.le_of_lt (level_pos_of_prefix_group h hnil hlt hp)
    · exact Int.le_of_eq (by rw [hp.eq_of_length_le hge, hclosed])

/-- A group encloses every mark that is not its first character. -/
theorem Balanced.encloses_group {cs : List Char} {mark : Char} (h : Balanced cs)
    (hmark : mark ≠ '<') : Encloses mark (Spelling.group cs) := by
  intro p r hp
  have hlt : p.length < (Spelling.group cs).length := by
    rw [hp, List.length_append, List.length_cons]
    omega
  refine Int.ne_of_gt (level_pos_of_prefix_group h ?_ hlt (hp ▸ List.prefix_append p _))
  rintro rfl
  exact hmark (List.cons.inj hp).1.symm

/-! ### Cutting at open commas -/

/-- Where no group is closed that was not opened, the depth follows the level. -/
theorem nest_eq {depth : Nat} {c : Char} (h : 0 ≤ depth + weight c) :
    (nest depth c : Int) = depth + weight c := by
  unfold nest weight at *
  split
  · omega
  · split
    · rw [if_neg (by assumption), if_pos (by assumption)] at h
      omega
    · omega

/-- A text without open commas goes to the first part of what follows. Induction on the text, for
any depth that it does not fall below. -/
theorem pieces_append {p : List Char} {depth depth' : Nat} {r w : List Char} {ws : List (List Char)}
    (hlow : ∀ q, q <+: p → 0 ≤ depth + level q)
    (hcomma : ∀ q s, p = q ++ ',' :: s → (depth : Int) + level q ≠ 0)
    (hdepth : (depth' : Int) = depth + level p) (hr : pieces depth' r = w :: ws) :
    pieces depth (p ++ r) = (p ++ w) :: ws := by
  induction p generalizing depth with
  | nil =>
    obtain rfl : depth' = depth := Int.ofNat.inj (by simpa using hdepth)
    exact hr
  | cons c p ih =>
    have hopen : ¬ (c = ',' ∧ depth = 0) := by
      rintro ⟨rfl, rfl⟩
      exact hcomma [] p rfl rfl
    have hnext : (nest depth c : Int) = depth + weight c := by
      refine nest_eq ?_
      simpa using hlow [c] ⟨p, rfl⟩
    rw [List.cons_append, pieces, if_neg hopen, ih]
    · rfl
    · intro q hq
      rw [hnext, Int.add_assoc]
      exact hlow (c :: q) (List.prefix_cons_inj c |>.2 hq)
    · intro q s hp
      rw [hnext, Int.add_assoc]
      exact hcomma (c :: q) s (by rw [hp, List.cons_append])
    · rw [hdepth, hnext, level_cons, Int.add_assoc]

theorem pieces_balanced {p : List Char} (hp : Balanced p) (hcomma : Encloses ',' p) {r w : List Char}
    {ws : List (List Char)} (hr : pieces 0 r = w :: ws) : pieces 0 (p ++ r) = (p ++ w) :: ws := by
  refine pieces_append ?_ ?_ ?_ hr
  · simpa using hp.nonneg
  · simpa [Encloses] using hcomma
  · simp [hp.closed]

/-- What can stand as one of several arguments. -/
structure IsArgument (cs : List Char) : Prop where
  balanced : Balanced cs
  encloses : Encloses ',' cs
  trimmed : trim cs = cs

theorem pieces_join {w : List Char} {ws : List (List Char)} (h : ∀ v ∈ w :: ws, IsArgument v) :
    pieces 0 ([','].intercalate (w :: ws)) = w :: ws := by
  induction ws generalizing w with
  | nil =>
    have hw := h w (List.mem_cons_self ..)
    have hp := pieces_balanced hw.balanced hw.encloses (r := []) rfl
    simpa using hp
  | cons v ws ih =>
    have hw := h w (List.mem_cons_self ..)
    have hr := ih fun u hu => h u (List.mem_cons_of_mem w hu)
    have hcut : pieces 0 (',' :: [','].intercalate (v :: ws)) = [] :: v :: ws := by
      rw [pieces, if_pos ⟨rfl, rfl⟩, hr]
    have hp := pieces_balanced hw.balanced hw.encloses hcut
    rw [join_cons_cons, hp, List.append_nil]

/-- **The arguments are found again,** if the last is not empty. -/
theorem arguments_join {ws : List (List Char)} (h : ∀ v ∈ ws, IsArgument v)
    (hlast : ws.getLast? ≠ some []) : arguments ([','].intercalate ws) = ws := by
  cases ws with
  | nil => decide
  | cons w ws =>
    have htrim : (w :: ws).map trim = w :: ws :=
      (List.map_congr_left fun v hv => (h v hv).trimmed).trans (List.map_id' _)
    rw [arguments, pieces_join h, htrim, if_neg hlast]

end Spelling

theorem Space.between?_append (start cs stop : List Char) :
    between? start stop (start ++ (cs ++ stop)) = some cs := by
  rw [between?, Text.afterStart?_append]
  exact Text.beforeEnd?_append cs stop

end Bindery
