/-
# Every allocation is given back once

Handles are made and dropped in any order (`Pool.Step`). Which allocation a name keeps follows from
what was done with the names (`Pool.Ties`):

| step | the name keeps |
| --- | --- |
| `owned` | a new allocation, as its owner |
| `borrowed` | nothing |
| `borrowedFrom` a living name | what that name keeps |
| `drop` | nothing, it is gone |

A pool knows less: it counts how many handles refer to an allocation, and gives the allocation back
when the count comes down to zero. But its handles are those of the names, and an allocation is
given back at the step at which the last name that kept it lets it go. Such an allocation is never
kept again, for a name comes to keep one only if it is new or kept by a living name. So each is
given back once, in whatever order the handles go (`Pool.released_exactly_once`).
-/

import Bindery.Proofs.Native.Counting
import Mathlib.Data.List.Induction
import Mathlib.Data.List.Nodup
import Mathlib.Logic.Function.Basic

namespace Bindery

variable {ω : Type}

namespace Pool

/-! ### What is done with handles -/

/-- One thing done with handles. -/
inductive Step (ω : Type) where
  | owned (name : String) (ptr : Address) (owner : ω)
  | borrowed (name : String) (ptr : Address)
  | borrowedFrom (name : String) (ptr : Address) (parent : String)
  | drop (name : String)

/-- The name that a step is about. -/
def Step.name : Step ω → String
  | owned name _ _ => name
  | borrowed name _ => name
  | borrowedFrom name _ _ => name
  | drop name => name

/-- The pool after one step. -/
def next (pool : Pool ω) : Step ω → Pool ω
  | .owned name ptr owner => pool.putOwned name ptr owner
  | .borrowed name ptr => pool.putBorrowed name ptr
  | .borrowedFrom name ptr parent => pool.putBorrowedFrom name ptr parent
  | .drop name => pool.drop name

/-- The pool after steps, first to last. -/
def after (pool : Pool ω) (steps : List (Step ω)) : Pool ω := steps.foldl next pool

theorem after_concat (pool : Pool ω) (steps : List (Step ω)) (step : Step ω) :
    pool.after (steps ++ [step]) = (pool.after steps).next step := by
  rw [after, List.foldl_append]
  rfl

/-- What owners get when allocations are given back. -/
def giveBack (as : List (Allocation ω)) : List (ω × Address) :=
  (as.filter (·.ptr ≠ 0)).map fun a => (a.owner, a.ptr)

theorem giveBack_append (as bs : List (Allocation ω)) :
    giveBack (as ++ bs) = giveBack as ++ giveBack bs := by
  simp [giveBack]

/-! ### Who keeps what -/

/-- What a living name has: the allocation that it keeps, if there is one, and whether it was made
as its owner. -/
structure Tie (ω : Type) where
  keeps : Option (Allocation ω)
  isOwner : Bool

/-- The allocations that were made, in their order, and what the living names have. -/
structure Ties (ω : Type) where
  made : List (Allocation ω) := []
  of : String → Option (Tie ω) := fun _ => none

namespace Ties

/-- The ties after one step. Nothing is made inside an object that is not there. -/
def next (t : Ties ω) : Step ω → Ties ω
  | .owned name ptr owner =>
    let new : Allocation ω := ⟨t.made.length, ptr, owner⟩
    ⟨t.made ++ [new], Function.update t.of name (some ⟨some new, true⟩)⟩
  | .borrowed name _ => { t with of := Function.update t.of name (some ⟨none, false⟩) }
  | .borrowedFrom name _ parent =>
    match t.of parent with
    | some tie => { t with of := Function.update t.of name (some ⟨tie.keeps, false⟩) }
    | none => t
  | .drop name => { t with of := Function.update t.of name none }

/-- The ties after steps, first to last. -/
def after (t : Ties ω) (steps : List (Step ω)) : Ties ω := steps.foldl next t

theorem after_concat (t : Ties ω) (steps : List (Step ω)) (step : Step ω) :
    t.after (steps ++ [step]) = (t.after steps).next step := by
  rw [after, List.foldl_append]
  rfl

/-- A living name keeps an allocation. -/
def Keeps (t : Ties ω) (a : Allocation ω) : Prop :=
  ∃ name tie, t.of name = some tie ∧ tie.keeps = some a

variable {t : Ties ω} {a : Allocation ω}

/-- What is made is kept, and numbered by what was made before. -/
theorem made_next (t : Ties ω) (step : Step ω) : (t.next step).made = t.made ∨
    ∃ new, (t.next step).made = t.made ++ [new] ∧ new.serial = t.made.length ∧
      (t.next step).Keeps new := by
  cases step with
  | owned name ptr owner =>
    exact .inr ⟨_, rfl, rfl, name, _, Function.update_self .., rfl⟩
  | borrowed | drop => exact .inl rfl
  | borrowedFrom name ptr parent =>
    rw [next]
    split <;> exact .inl rfl

/-- A name that gets a tie to an old allocation gets it from a living name. -/
theorem keeps_of_update {name : String} {tie? : Option (Tie ω)}
    (h : ({ t with of := Function.update t.of name tie? } : Ties ω).Keeps a) :
    (∃ tie, tie? = some tie ∧ tie.keeps = some a) ∨ t.Keeps a := by
  obtain ⟨other, tie, htie, ha⟩ := h
  by_cases hname : other = name
  · subst hname
    exact .inl ⟨tie, (Function.update_self other tie? t.of).symm.trans htie, ha⟩
  · exact .inr ⟨other, tie, (Function.update_of_ne hname tie? t.of).symm.trans htie, ha⟩

/-- What is kept after a step is new or was kept before. -/
theorem keeps_next (step : Step ω) (h : (t.next step).Keeps a) :
    t.Keeps a ∨ (t.next step).made = t.made ++ [a] ∧ a.serial = t.made.length := by
  cases step with
  | owned name ptr owner =>
    rcases keeps_of_update h with ⟨tie, htie, ha⟩ | hold
    · obtain rfl := Option.some.inj htie
      obtain rfl := Option.some.inj ha
      exact .inr ⟨rfl, rfl⟩
    · exact .inl hold
  | borrowed name ptr =>
    rcases keeps_of_update h with ⟨tie, htie, ha⟩ | hold
    · obtain rfl := Option.some.inj htie
      exact absurd ha nofun
    · exact .inl hold
  | borrowedFrom name ptr parent =>
    rw [next] at h
    split at h
    · rename_i tie hparent
      rcases keeps_of_update h with ⟨tie', htie, ha⟩ | hold
      · obtain rfl := Option.some.inj htie
        exact .inl ⟨parent, tie, hparent, ha⟩
      · exact .inl hold
    · exact .inl h
  | drop name =>
    rcases keeps_of_update h with ⟨tie, htie, -⟩ | hold
    · exact absurd htie nofun
    · exact .inl hold

/-- Allocations are numbered in the order in which they are made, and only they are kept. -/
structure Sound (t : Ties ω) : Prop where
  numbered : t.made.map (·.serial) = List.range t.made.length
  kept : ∀ a, t.Keeps a → a ∈ t.made

theorem sound_empty : ({} : Ties ω).Sound := ⟨rfl, fun _ ⟨_, _, h, _⟩ => absurd h nofun⟩

namespace Sound

theorem serial_lt (h : t.Sound) (ha : a ∈ t.made) : a.serial < t.made.length := by
  have hserial := List.mem_map_of_mem (f := (·.serial)) ha
  rw [h.numbered] at hserial
  exact List.mem_range.1 hserial

/-- A number belongs to one allocation. -/
theorem eq_of_serial_eq (h : t.Sound) {b : Allocation ω} (ha : a ∈ t.made) (hb : b ∈ t.made)
    (hserial : a.serial = b.serial) : a = b := by
  have hnodup : (t.made.map (·.serial)).Nodup := h.numbered ▸ List.nodup_range
  exact List.inj_on_of_nodup_map hnodup ha hb hserial

/-- **A step keeps ties sound.** -/
theorem next (h : t.Sound) (step : Step ω) : (t.next step).Sound := by
  constructor
  · rcases t.made_next step with hmade | ⟨new, hmade, hserial, -⟩
    · rw [hmade, h.numbered]
    · rw [hmade, List.map_append, h.numbered, List.length_append, List.map_singleton, hserial]
      exact List.range_succ.symm
  · intro a ha
    rcases keeps_next step ha with hold | ⟨hnew, -⟩
    · rcases t.made_next step with hmade | ⟨new, hmade, -, -⟩
      · exact hmade ▸ h.kept a hold
      · exact hmade ▸ List.mem_append_left _ (h.kept a hold)
    · exact hnew ▸ List.mem_append_right _ (List.mem_singleton_self a)

theorem after (h : t.Sound) (steps : List (Step ω)) : (t.after steps).Sound := by
  induction steps generalizing t with
  | nil => exact h
  | cons step rest ih => exact ih (h.next step)

/-- **An allocation that nobody keeps is never kept again.** So behind a step those are not kept
that were not kept before, and those that are let go. -/
theorem made_and_not_keeps_next_iff (h : t.Sound) (step : Step ω) :
    a ∈ (t.next step).made ∧ ¬ (t.next step).Keeps a ↔
      (a ∈ t.made ∧ ¬ t.Keeps a) ∨ (t.Keeps a ∧ ¬ (t.next step).Keeps a) := by
  have hmono : a ∈ t.made → a ∈ (t.next step).made := by
    intro ha
    rcases t.made_next step with hmade | ⟨new, hmade, -, -⟩
    · exact hmade ▸ ha
    · exact hmade ▸ List.mem_append_left _ ha
  constructor
  · rintro ⟨ha, hgone⟩
    by_cases hkept : t.Keeps a
    · exact .inr ⟨hkept, hgone⟩
    · refine .inl ⟨?_, hkept⟩
      rcases t.made_next step with hmade | ⟨new, hmade, -, hnew⟩
      · exact hmade ▸ ha
      · rw [hmade, List.mem_append, List.mem_singleton] at ha
        exact ha.resolve_right fun heq => hgone (heq ▸ hnew)
  · rintro (⟨ha, hgone⟩ | ⟨hkept, hgone⟩)
    · refine ⟨hmono ha, fun hnext => ?_⟩
      rcases keeps_next step hnext with hold | ⟨-, hserial⟩
      · exact hgone hold
      · exact Nat.ne_of_lt (h.serial_lt ha) hserial
    · exact ⟨hmono (h.kept a hkept), hgone⟩

end Sound
end Ties

/-! ### A pool follows its ties -/

/-- The tie that a handle stands for. -/
def tie (h : Handle ω) : Tie ω := ⟨h.anchor, h.isOwned⟩

/-- Beside the counts, a pool has a handle for each living name, with its tie, and goes on with the
numbers. -/
structure Follows (pool : Pool ω) (t : Ties ω) : Prop extends pool.Counted where
  serial : pool.serial = t.made.length
  handles : ∀ name, (pool.get? name).map tie = t.of name

/-- A pool without handles. -/
theorem follows_empty : ({} : Pool ω).Follows {} :=
  ⟨⟨List.nodup_nil, fun _ => rfl⟩, rfl, fun _ => rfl⟩

/-- What is found under a name after a handle was put under one, or none. -/
theorem get?_of_live_eq {pool pool' : Pool ω} {name : String} {new : Option (Handle ω)}
    (h : pool'.live = new.toList.map (name, ·) ++ pool.without name) (other : String) :
    pool'.get? other = if other = name then new else pool.get? other := by
  rw [get?, h, List.find?_append, without, List.find?_filter]
  by_cases hname : other = name
  · subst hname
    have hnone : (pool.live.find? fun e => (e.1 != other) = true ∧ (e.1 == other) = true) =
        none := by
      simp
    rw [if_pos rfl, hnone]
    cases new <;> simp
  · rw [if_neg hname, get?]
    have hsame : (fun e : String × Handle ω =>
        decide ((e.1 != name) = true ∧ (e.1 == other) = true)) = fun e => e.1 == other := by
      funext e
      by_cases he : e.1 = other <;> simp [he, hname]
    rw [hsame]
    cases new <;> simp [Ne.symm hname]

namespace Follows

variable {pool : Pool ω} {t : Ties ω} {step : Step ω} {a : Allocation ω}

/-- **What a step does.** It does nothing, to the pool and to the ties, or it gives its name, if to
anything, to a new handle and lets the old one go. -/
theorem cases_next (h : pool.Follows t) (step : Step ω) :
    (pool.next step = pool ∧ t.next step = t) ∨
    ∃ new : Option (Handle ω),
      ({ pool with serial := (t.next step).made.length } : Pool ω).Replaced step.name
        (new.toList.map (step.name, ·) ++ pool.without step.name) (pool.next step) ∧
      (t.next step).of = Function.update t.of step.name (new.map tie) := by
  have hsame : ({ pool with serial := t.made.length } : Pool ω) = pool := by rw [← h.serial]
  cases step with
  | owned name ptr owner =>
    have hcounted : ({ pool with serial := t.made.length + 1 } : Pool ω).Counted :=
      ⟨h.names, h.counts⟩
    refine .inr ⟨some (.owned t.made.length ptr owner), ?_, rfl⟩
    show ({ pool with serial := (t.made ++ [_]).length } : Pool ω).Replaced _ _
      (pool.putOwned name ptr owner)
    rw [putOwned, h.serial, List.length_append]
    exact hcounted.put name _
  | borrowed name ptr =>
    refine .inr ⟨some (.borrowed ptr), ?_, rfl⟩
    show ({ pool with serial := t.made.length } : Pool ω).Replaced _ _ _
    rw [hsame]
    exact h.toCounted.put name _
  | borrowedFrom name ptr parent =>
    have hparent := h.handles parent
    cases hget : pool.get? parent with
    | none =>
      rw [hget] at hparent
      refine .inl ⟨?_, ?_⟩
      · rw [next, putBorrowedFrom, hget]
      · rw [Ties.next, ← hparent]
        rfl
    | some p =>
      rw [hget] at hparent
      have hnext : t.next (.borrowedFrom name ptr parent) =
          { t with of := Function.update t.of name (some ⟨p.anchor, false⟩) } := by
        rw [Ties.next, ← hparent]
        rfl
      have htie : tie (.borrowedFrom ptr p) = ⟨p.anchor, false⟩ := by
        simp [tie, Handle.borrowedFrom, Handle.isOwned]
      refine .inr ⟨some (.borrowedFrom ptr p), ?_, ?_⟩
      · rw [hnext, hsame, next, putBorrowedFrom, hget]
        exact h.toCounted.put name _
      · rw [hnext, Option.map_some, htie]
        rfl
  | drop name =>
    refine .inr ⟨none, ?_, rfl⟩
    show ({ pool with serial := t.made.length } : Pool ω).Replaced _ _ _
    rw [hsame]
    exact h.toCounted.drop name

/-- **A step keeps a pool following its ties.** -/
theorem next (h : pool.Follows t) (step : Step ω) : (pool.next step).Follows (t.next step) := by
  rcases h.cases_next step with ⟨hpool, hties⟩ | ⟨new, hreplaced, hof⟩
  · rwa [hpool, hties]
  · refine ⟨⟨?_, fun serial => ?_⟩, hreplaced.serial, fun name => ?_⟩
    · -- the name of the new handle was taken out before
      have hwithout : ((pool.without step.name).map (·.1)).Nodup :=
        h.names.sublist (List.filter_sublist.map _)
      have hfree : step.name ∉ (pool.without step.name).map (·.1) := by
        intro hname
        obtain ⟨e, he, hname⟩ := List.mem_map.1 hname
        exact name_ne_of_mem_without he hname
      rw [hreplaced.live, List.map_append]
      cases new with
      | none => exact hwithout
      | some new => exact List.nodup_cons.2 ⟨hfree, hwithout⟩
    · rw [hreplaced.counts, hreplaced.live]
    · rw [get?_of_live_eq hreplaced.live, hof]
      by_cases hname : name = step.name
      · rw [if_pos hname, hname, Function.update_self]
      · rw [if_neg hname, Function.update_of_ne hname]
        exact h.handles name

theorem after (h : pool.Follows t) (steps : List (Step ω)) :
    (pool.after steps).Follows (t.after steps) := by
  induction steps generalizing pool t with
  | nil => exact h
  | cons step rest ih => exact ih (h.next step)

/-- What the names keep, the handles refer to. -/
theorem keeps_iff (h : pool.Follows t) : t.Keeps a ↔ ∃ e ∈ pool.live, e.2.anchor = some a := by
  constructor
  · rintro ⟨name, tie', htie, ha⟩
    rw [← h.handles] at htie
    obtain ⟨handle, hget, rfl⟩ := Option.map_eq_some_iff.1 htie
    exact ⟨(name, handle), mem_live_of_get? hget, ha⟩
  · rintro ⟨e, he, ha⟩
    refine ⟨e.1, tie e.2, ?_, ha⟩
    rw [← h.handles, get?_of_mem_live h.names he]
    rfl

/-- Handles are told apart by numbers, and these tell the allocations. -/
theorem any_refersTo_iff (h : pool.Follows t) (sound : t.Sound) (ha : a ∈ t.made) :
    (pool.live.map (·.2)).any (·.refersTo a.serial) = true ↔ t.Keeps a := by
  simp only [h.keeps_iff, List.any_map, List.any_eq_true, Function.comp_apply, Handle.refersTo_iff]
  constructor
  · rintro ⟨e, he, b, hb, hserial⟩
    have hmade : b ∈ t.made := sound.kept b (h.keeps_iff.2 ⟨e, he, hb⟩)
    exact ⟨e, he, sound.eq_of_serial_eq hmade ha hserial ▸ hb⟩
  · rintro ⟨e, he, hanchor⟩
    exact ⟨e, he, a, hanchor, rfl⟩

/-- What a handle gives back when it goes, if `rest` remains. -/
theorem toList_freed (old : Handle ω) (rest : List (Handle ω)) : (old.freed rest).toList =
    giveBack (old.anchor.filter fun a => !rest.any (·.refersTo a.serial)).toList := by
  unfold Handle.freed giveBack
  cases old.anchor with
  | none => rfl
  | some a => by_cases hptr : a.ptr = 0 <;> by_cases hrest : rest.any (·.refersTo a.serial) <;>
      simp [Option.filter, hptr, hrest]

/-- Only what the name of a step kept can be let go at the step. -/
theorem anchor_of_not_keeps_next {new : Option (Tie ω)} (h : pool.Follows t)
    (hof : (t.next step).of = Function.update t.of step.name new) (ha : t.Keeps a)
    (hgone : ¬ (t.next step).Keeps a) : (pool.get? step.name).bind (·.anchor) = some a := by
  obtain ⟨name, tie', htie, hkeeps⟩ := ha
  by_cases hname : name = step.name
  · rw [← h.handles, hname] at htie
    obtain ⟨old, hold, rfl⟩ := Option.map_eq_some_iff.1 htie
    rw [hold]
    exact hkeeps
  · refine absurd ⟨name, tie', ?_, hkeeps⟩ hgone
    rw [hof, Function.update_of_ne hname]
    exact htie

/-- **What a step gives back:** the allocation that the last name lets go at it, if there is one. -/
theorem released_next (h : pool.Follows t) (sound : t.Sound) (step : Step ω) :
    ∃ ended : Option (Allocation ω),
      (∀ a, ended = some a ↔ t.Keeps a ∧ ¬ (t.next step).Keeps a) ∧
      (pool.next step).released = pool.released ++ giveBack ended.toList := by
  rcases h.cases_next step with ⟨hpool, hties⟩ | ⟨new, hreplaced, hof⟩
  · refine ⟨none, fun a => ?_, ?_⟩
    · rw [hties]
      exact ⟨nofun, fun ha => absurd ha.1 ha.2⟩
    · rw [hpool]
      exact (List.append_nil _).symm
  have hkept : ∀ a, t.Keeps a →
      (((pool.next step).live.map (·.2)).any (·.refersTo a.serial) = true ↔
        (t.next step).Keeps a) := by
    intro a ha
    refine (h.next step).any_refersTo_iff (sound.next step) ?_
    rcases t.made_next step with hmade | ⟨new, hmade, -, -⟩
    · exact hmade ▸ sound.kept a ha
    · exact hmade ▸ List.mem_append_left _ (sound.kept a ha)
  refine ⟨((pool.get? step.name).bind (·.anchor)).filter fun a =>
    !((pool.next step).live.map (·.2)).any (·.refersTo a.serial), fun a => ?_, ?_⟩
  · rw [Option.filter_eq_some_iff, Bool.not_eq_true', Bool.eq_false_iff]
    constructor
    · rintro ⟨hanchor, hrest⟩
      obtain ⟨old, hold, hanchor⟩ := Option.bind_eq_some_iff.1 hanchor
      have ha : t.Keeps a := h.keeps_iff.2 ⟨_, mem_live_of_get? hold, hanchor⟩
      exact ⟨ha, fun hnext => hrest ((hkept a ha).2 hnext)⟩
    · rintro ⟨ha, hnext⟩
      exact ⟨h.anchor_of_not_keeps_next hof ha hnext, fun hrest => hnext ((hkept a ha).1 hrest)⟩
  · rw [hreplaced.released, ← hreplaced.live]
    show pool.released ++ ((pool.get? step.name).bind _).toList = _
    cases pool.get? step.name with
    | none => rfl
    | some old => exact congrArg (pool.released ++ ·) (toList_freed old _)

end Follows

/-- **What was given back, after any steps:** the allocations that nobody keeps, each once.
Induction on the steps, by the last one. -/
theorem released_after (steps : List (Step ω)) : ∃ ended : List (Allocation ω), ended.Nodup ∧
    (∀ a, a ∈ ended ↔
      a ∈ (({} : Ties ω).after steps).made ∧ ¬ (({} : Ties ω).after steps).Keeps a) ∧
    (({} : Pool ω).after steps).released = giveBack ended := by
  induction steps using List.reverseRecOn with
  | nil => exact ⟨[], List.nodup_nil, fun a => ⟨nofun, fun ha => absurd ha.1 List.not_mem_nil⟩, rfl⟩
  | append_singleton steps step ih =>
    obtain ⟨ended, hnodup, hended, hreleased⟩ := ih
    have sound := Ties.sound_empty.after steps
    obtain ⟨last, hlast, hreleased'⟩ := (follows_empty.after steps).released_next sound step
    rw [after_concat, Ties.after_concat]
    refine ⟨ended ++ last.toList, ?_, fun a => ?_, ?_⟩
    · -- what is let go now was kept until now
      refine List.nodup_append.2 ⟨hnodup, by cases last <;> simp, fun a ha b hb hab => ?_⟩
      have hkept := ((hlast b).1 (Option.mem_toList.1 hb)).1
      exact ((hended a).1 ha).2 (hab ▸ hkept)
    · rw [List.mem_append, Option.mem_toList, hended, hlast,
        sound.made_and_not_keeps_next_iff]
    · rw [hreleased', hreleased, giveBack_append]

/-- **Every allocation is given back once, when the last name lets it go.** Let handles be made and
dropped in any order. What each name has is what was done with the names: one that was made as an
owner keeps a new allocation, one that was borrowed from a living name keeps what that keeps, any
other nothing, and one that was dropped is gone. The handles of the pool are those of the living
names; they refer to what these keep, and count as owners if they were made so. Allocations are
numbered in the order in which they are made. What has been given back is what those of them amount
to that nobody keeps, each once, through its own owner and with its own pointer, none at the null
pointer. Another step gives back the allocation that the last name lets go at it, and nothing if
there is none. -/
theorem released_exactly_once (steps : List (Step ω)) :
    let t := ({} : Ties ω).after steps
    let pool := ({} : Pool ω).after steps
    ((pool.live.map (·.1)).Nodup ∧
      ∀ name, (pool.get? name).map (fun h => ⟨h.anchor, h.isOwned⟩) = t.of name) ∧
    t.made.map (·.serial) = List.range t.made.length ∧
    (∃ ended : List (Allocation ω), ended.Nodup ∧
      (∀ a, a ∈ ended ↔ a ∈ t.made ∧ ¬ t.Keeps a) ∧ pool.released = giveBack ended) ∧
    ∀ step, ∃ ended : Option (Allocation ω),
      (∀ a, ended = some a ↔ t.Keeps a ∧ ¬ (t.next step).Keeps a) ∧
      (pool.next step).released = pool.released ++ giveBack ended.toList := by
  intro t pool
  have sound : t.Sound := Ties.sound_empty.after steps
  have follows : pool.Follows t := follows_empty.after steps
  exact ⟨⟨follows.names, follows.handles⟩, sound.numbered, released_after steps,
    follows.released_next sound⟩

/-- A field outlives the object that it was read from, and a field of that field both. -/
example : (({} : Pool Unit).after [.owned "parent" 8 (), .borrowedFrom "field" 16 "parent",
    .drop "parent", .borrowedFrom "inner" 24 "field", .drop "field"]).released = [] := by decide

/-- The last one gives it back. -/
example : (({} : Pool Unit).after [.owned "parent" 8 (), .borrowedFrom "field" 16 "parent",
    .drop "parent", .borrowedFrom "inner" 24 "field", .drop "field", .drop "inner"]).released =
      [((), 8)] := by decide

end Pool
end Bindery
