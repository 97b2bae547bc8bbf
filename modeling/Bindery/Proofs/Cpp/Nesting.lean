/-
# Nesting of brackets

Read a text from left to right and count: `<` and `(` open a group, `>` and `)` close one. Which
kind closes which does not matter, only the number of open groups does (`level`). A text is
balanced if no beginning of it closes more groups than it opened and the whole text leaves none
open (`Balanced`). A mark is enclosed if it never stands where no group is open (`Encloses`).

What this is for: a text that is put together from parts can be cut into them again, without any
escaping.

| put together as | cut at | because |
| --- | --- | --- |
| `p`, a mark, the rest | the first open mark | `p` encloses the mark (`eq_of_append_mark`) |
| `p`, a closing bracket, the rest | where the level falls below zero | `p` is balanced (`eq_of_append_close`) |
| parts with commas between them | each open comma | the parts enclose commas (`join_injective`) |
-/

import Bindery.Cpp.Spelling
import Mathlib.Data.List.Infix

namespace Bindery
namespace Spelling

/-- What a character adds to the number of open groups. -/
def weight (c : Char) : Int :=
  if c = '<' ∨ c = '(' then 1 else if c = '>' ∨ c = ')' then -1 else 0

/-- The number of groups that a text opens and does not close. -/
def level : List Char → Int
  | [] => 0
  | c :: r => weight c + level r

@[simp] theorem level_nil : level [] = 0 := rfl

@[simp] theorem level_cons (c : Char) (r : List Char) : level (c :: r) = weight c + level r := rfl

@[simp] theorem level_append (p q : List Char) : level (p ++ q) = level p + level q := by
  induction p with
  | nil => simp
  | cons c r ih => rw [List.cons_append, level_cons, level_cons, ih, Int.add_assoc]

/-- No beginning of the text closes a group that it has not opened, and the text closes all. -/
structure Balanced (cs : List Char) : Prop where
  nonneg : ∀ p, p <+: cs → 0 ≤ level p
  closed : level cs = 0

/-- Every occurrence of a mark stands inside a group. -/
def Encloses (mark : Char) (cs : List Char) : Prop :=
  ∀ p r, cs = p ++ mark :: r → level p ≠ 0

/-- A part of a list of types: it can stand between commas and be told from its neighbours. -/
structure IsPart (cs : List Char) : Prop where
  balanced : Balanced cs
  nonempty : cs ≠ []
  encloses : Encloses ',' cs

instance (cs : List Char) : Decidable (Balanced cs) :=
  decidable_of_iff ((∀ p ∈ cs.inits, 0 ≤ level p) ∧ level cs = 0)
    ⟨fun h => ⟨fun p hp => h.1 p ((List.mem_inits p cs).2 hp), h.2⟩,
      fun h => ⟨fun p hp => h.nonneg p ((List.mem_inits p cs).1 hp), h.closed⟩⟩

theorem encloses_iff_forall_inits (mark : Char) (cs : List Char) :
    Encloses mark cs ↔ ∀ p ∈ cs.inits, (cs.drop p.length).head? = some mark → level p ≠ 0 := by
  constructor
  · intro h p hp hmark
    obtain ⟨t, rfl⟩ := (List.mem_inits p cs).1 hp
    rw [List.drop_left] at hmark
    obtain ⟨r, rfl⟩ := List.head?_eq_some_iff.1 hmark
    exact h p r rfl
  · rintro h p r rfl
    exact h p ((List.mem_inits p _).2 (List.prefix_append p _)) (by simp)

instance (mark : Char) (cs : List Char) : Decidable (Encloses mark cs) :=
  decidable_of_iff _ (encloses_iff_forall_inits mark cs).symm

instance (cs : List Char) : Decidable (IsPart cs) :=
  decidable_of_iff (Balanced cs ∧ cs ≠ [] ∧ Encloses ',' cs)
    ⟨fun h => ⟨h.1, h.2.1, h.2.2⟩, fun h => ⟨h.balanced, h.nonempty, h.encloses⟩⟩

/-! ### Balanced texts -/

theorem balanced_nil : Balanced [] :=
  ⟨fun p hp => by simp [List.prefix_nil.1 hp], rfl⟩

theorem Balanced.append {p q : List Char} (hp : Balanced p) (hq : Balanced q) :
    Balanced (p ++ q) := by
  refine ⟨fun u hu => ?_, by rw [level_append, hp.closed, hq.closed, Int.add_zero]⟩
  rcases List.prefix_or_prefix_of_prefix hu (List.prefix_append p q) with h | ⟨v, rfl⟩
  · exact hp.nonneg u h
  · rw [level_append, hp.closed, Int.zero_add]
    exact hq.nonneg v ((List.prefix_append_right_inj p).1 hu)

/-- A character that opens and closes nothing may stand in front. -/
theorem Balanced.cons {c : Char} {cs : List Char} (hc : weight c = 0) (h : Balanced cs) :
    Balanced (c :: cs) := by
  refine ⟨fun p hp => ?_, by rw [level_cons, hc, h.closed, Int.add_zero]⟩
  rcases List.prefix_cons_iff.1 hp with rfl | ⟨u, rfl, hu⟩
  · simp
  · rw [level_cons, hc, Int.zero_add]
    exact h.nonneg u hu

/-- Balanced parts stay balanced with commas between them. -/
theorem balanced_join {ws : List (List Char)} (h : ∀ w ∈ ws, Balanced w) :
    Balanced ([','].intercalate ws) := by
  induction ws with
  | nil => exact balanced_nil
  | cons w r ih =>
    have hw := h w (List.mem_cons_self ..)
    have hr := ih fun v hv => h v (List.mem_cons_of_mem w hv)
    cases r with
    | nil => simpa using hw
    | cons v r =>
      rw [List.intercalate_cons_cons, List.append_assoc]
      exact hw.append (hr.cons (by decide))

/-! ### Cutting -/

/-- **The first open mark is found.** A text that encloses a mark and opens as many groups as it
closes is all that stands before the first open mark. -/
theorem eq_of_append_mark {mark : Char} {p q r s : List Char} (hp : level p = 0) (hq : level q = 0)
    (hpm : Encloses mark p) (hqm : Encloses mark q) (h : p ++ mark :: r = q ++ mark :: s) :
    p = q ∧ r = s := by
  rcases List.append_eq_append_iff.1 h with ⟨t, rfl, ht⟩ | ⟨t, rfl, ht⟩
  · cases t with
    | nil => exact ⟨(List.append_nil p).symm, (List.cons.inj ht).2⟩
    | cons c t =>
      obtain rfl := (List.cons.inj ht).1
      exact absurd hp (hqm p t rfl)
  · cases t with
    | nil => exact ⟨List.append_nil q, ((List.cons.inj ht).2).symm⟩
    | cons c t =>
      obtain rfl := (List.cons.inj ht).1
      exact absurd hq (hpm q t rfl)

/-- **The end of a group is found.** A balanced text is all that stands before the bracket that
closes the group around it. -/
theorem eq_of_append_close {close : Char} {p q r s : List Char} (hc : weight close = -1)
    (hp : Balanced p) (hq : Balanced q) (h : p ++ close :: r = q ++ close :: s) :
    p = q ∧ r = s := by
  -- a balanced text cannot go on behind a closing bracket at its own level
  have stop : ∀ {u t : List Char}, Balanced u → ¬ Balanced (u ++ close :: t) := by
    intro u t hu hb
    have hlow := hb.nonneg (u ++ [close]) ⟨t, by simp⟩
    rw [level_append, hu.closed, level_cons, hc, level_nil] at hlow
    omega
  rcases List.append_eq_append_iff.1 h with ⟨t, rfl, ht⟩ | ⟨t, rfl, ht⟩
  · cases t with
    | nil => exact ⟨(List.append_nil p).symm, (List.cons.inj ht).2⟩
    | cons c t =>
      obtain rfl := (List.cons.inj ht).1
      exact absurd hq (stop hp)
  · cases t with
    | nil => exact ⟨List.append_nil q, ((List.cons.inj ht).2).symm⟩
    | cons c t =>
      obtain rfl := (List.cons.inj ht).1
      exact absurd hp (stop hq)

/-- A part is not two parts with a comma between them. -/
theorem IsPart.ne_append_comma {w v r : List Char} (hw : IsPart w) (hv : IsPart v) :
    w ≠ v ++ ',' :: r :=
  fun h => hw.encloses v r h hv.balanced.closed

theorem join_cons_cons (w v : List Char) (r : List (List Char)) :
    [','].intercalate (w :: v :: r) = w ++ ',' :: [','].intercalate (v :: r) := by
  rw [List.intercalate_cons_cons, List.append_assoc, List.singleton_append]

theorem join_ne_nil {w : List Char} {r : List (List Char)} (hw : w ≠ []) :
    [','].intercalate (w :: r) ≠ [] := by
  cases r with
  | nil => simpa using hw
  | cons v r => simp

/-- **A list of parts can be read back.** Induction on the list: the first open comma ends the
first part. -/
theorem join_injective {ws vs : List (List Char)} (hw : ∀ w ∈ ws, IsPart w)
    (hv : ∀ v ∈ vs, IsPart v) (h : [','].intercalate ws = [','].intercalate vs) : ws = vs := by
  induction ws generalizing vs with
  | nil =>
    cases vs with
    | nil => rfl
    | cons v vs => exact absurd h.symm (join_ne_nil (hv v (List.mem_cons_self ..)).nonempty)
  | cons w ws ih =>
    have hw' := hw w (List.mem_cons_self ..)
    cases vs with
    | nil => exact absurd h (join_ne_nil hw'.nonempty)
    | cons v vs =>
      have hv' := hv v (List.mem_cons_self ..)
      cases ws with
      | nil =>
        cases vs with
        | nil => simpa using h
        | cons v' vs =>
          rw [List.intercalate_singleton, join_cons_cons] at h
          exact absurd h (hw'.ne_append_comma hv')
      | cons w' ws =>
        cases vs with
        | nil =>
          rw [List.intercalate_singleton, join_cons_cons] at h
          exact absurd h.symm (hv'.ne_append_comma hw')
        | cons v' vs =>
          rw [join_cons_cons, join_cons_cons] at h
          obtain ⟨rfl, hr⟩ := eq_of_append_mark hw'.balanced.closed hv'.balanced.closed
            hw'.encloses hv'.encloses h
          rw [ih (fun u hu => hw u (List.mem_cons_of_mem w hu))
            (fun u hu => hv u (List.mem_cons_of_mem w hu)) hr]

end Spelling
end Bindery
