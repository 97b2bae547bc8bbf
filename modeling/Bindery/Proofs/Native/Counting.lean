/-
# Counting handles

A pool counts how many of its handles refer to each allocation, as they come and go, and gives an
allocation back when its count comes down to zero. The count is right as long as it starts right
(`Pool.Counted`): putting a handle under a name and removing one leave the right counts, and give
back what the handle that goes, and no other, kept (`Pool.Replaced`).

| | counts | gives back |
| --- | --- | --- |
| `retain` | one more for a new handle | nothing |
| `letGo` | one less for a handle that goes | what no remaining handle refers to |
-/

import Bindery.Native.Pool

namespace Bindery

variable {ω : Type}

theorem Handle.refersTo_iff {h : Handle ω} {serial : Nat} :
    h.refersTo serial = true ↔ ∃ a, h.anchor = some a ∧ a.serial = serial := by
  rw [refersTo]
  cases h.anchor <;> simp

namespace Pool

/-! ### Names -/

/-- Where the names are distinct, a name can be taken out with its handle. -/
theorem exists_live_eq {pool : Pool ω} (names : (pool.live.map (·.1)).Nodup) {name : String}
    {old : Handle ω} (h : pool.get? name = some old) :
    ∃ before behind, pool.live = before ++ (name, old) :: behind ∧
      pool.without name = before ++ behind := by
  obtain ⟨e, he, rfl⟩ := Option.map_eq_some_iff.1 h
  obtain ⟨hname, before, behind, hlive, -⟩ := List.find?_eq_some_iff_append.1 he
  have hname : e.1 = name := by simpa using hname
  subst hname
  refine ⟨before, behind, hlive, ?_⟩
  rw [hlive, List.map_append, List.map_cons, List.nodup_append, List.nodup_cons] at names
  obtain ⟨-, ⟨hbehind, -⟩, hbefore⟩ := names
  have hkeep : ∀ d ∈ before ++ behind, (d.1 != e.1) = true := by
    intro d hd
    rw [bne_iff_ne]
    intro heq
    rcases List.mem_append.1 hd with hd | hd
    · exact hbefore d.1 (List.mem_map_of_mem hd) e.1 (List.mem_cons_self ..) heq
    · exact hbehind (heq ▸ List.mem_map_of_mem hd)
  rw [without, hlive, List.filter_append, List.filter_cons_of_neg (by simp), ← List.filter_append]
  exact List.filter_eq_self.2 hkeep

/-- A name that is not taken is not taken out. -/
theorem without_eq_of_get?_eq_none {pool : Pool ω} {name : String} (h : pool.get? name = none) :
    pool.without name = pool.live := by
  rw [get?, Option.map_eq_none_iff, List.find?_eq_none] at h
  exact List.filter_eq_self.2 fun e he => by simpa using h e he

theorem mem_live_of_get? {pool : Pool ω} {name : String} {h : Handle ω}
    (hget : pool.get? name = some h) : (name, h) ∈ pool.live := by
  obtain ⟨e, he, rfl⟩ := Option.map_eq_some_iff.1 hget
  have hname : e.1 = name := by simpa using List.find?_some he
  subst hname
  exact List.mem_of_find?_eq_some he

theorem name_ne_of_mem_without {pool : Pool ω} {name : String} {e : String × Handle ω}
    (h : e ∈ pool.without name) : e.1 ≠ name := by
  simpa using (List.mem_filter.1 h).2

/-- Where the names are distinct, a living handle is found under its name. -/
theorem get?_of_mem_live {pool : Pool ω} (names : (pool.live.map (·.1)).Nodup)
    {e : String × Handle ω} (he : e ∈ pool.live) : pool.get? e.1 = some e.2 := by
  cases hold : pool.get? e.1 with
  | none =>
    rw [← without_eq_of_get?_eq_none hold] at he
    exact absurd rfl (name_ne_of_mem_without he)
  | some old =>
    obtain ⟨before, behind, hlive, hwithout⟩ := exists_live_eq names hold
    rw [hlive] at he
    rcases List.mem_append.1 he with he | he
    · exact absurd rfl (name_ne_of_mem_without (hwithout ▸ List.mem_append_left behind he))
    rcases List.mem_cons.1 he with heq | he
    · exact congrArg some (Prod.ext_iff.1 heq).2.symm
    · exact absurd rfl (name_ne_of_mem_without (hwithout ▸ List.mem_append_right before he))

/-! ### Counts -/

/-- How many handles refer to the allocation with a serial number. -/
def references (live : List (String × Handle ω)) (serial : Nat) : Nat :=
  live.countP fun e => e.2.refersTo serial

/-- One if a handle refers to the allocation with a serial number. -/
def weight (h : Handle ω) (serial : Nat) : Nat := if h.refersTo serial then 1 else 0

theorem weight_of_anchor_none {h : Handle ω} (hanchor : h.anchor = none) (serial : Nat) :
    weight h serial = 0 := by
  simp [weight, Handle.refersTo, hanchor]

theorem weight_of_anchor_some {h : Handle ω} {a : Allocation ω} (hanchor : h.anchor = some a)
    (serial : Nat) : weight h serial = if serial = a.serial then 1 else 0 := by
  by_cases hs : serial = a.serial
  · simp [weight, Handle.refersTo, hanchor, hs]
  · simp [weight, Handle.refersTo, hanchor, hs, Ne.symm hs]

theorem references_cons (e : String × Handle ω) (live : List (String × Handle ω)) (serial : Nat) :
    references (e :: live) serial = references live serial + weight e.2 serial :=
  List.countP_cons

theorem references_eq_zero_iff {live : List (String × Handle ω)} {serial : Nat} :
    references live serial = 0 ↔ (live.map (·.2)).any (·.refersTo serial) = false := by
  simp [references]

/-- The names are distinct and the counts right. -/
structure Counted (pool : Pool ω) : Prop where
  names : (pool.live.map (·.1)).Nodup
  counts : ∀ serial, pool.counts serial = references pool.live serial

theorem references_without {pool : Pool ω} (names : (pool.live.map (·.1)).Nodup) (name : String)
    (serial : Nat) : references pool.live serial =
      references (pool.without name) serial + (pool.get? name).elim 0 (weight · serial) := by
  cases h : pool.get? name with
  | none =>
    rw [without_eq_of_get?_eq_none h]
    rfl
  | some old =>
    obtain ⟨before, behind, hlive, hwithout⟩ := exists_live_eq names h
    simp only [hlive, hwithout, references, List.countP_append, List.countP_cons, Option.elim,
      weight]
    omega

theorem counts_recount (pool : Pool ω) (serial other : Nat) (f : Nat → Nat) :
    (pool.recount serial f).counts other =
      if other = serial then f (pool.counts other) else pool.counts other := by
  by_cases hs : other = serial <;> simp [recount, hs]

theorem counts_retain (pool : Pool ω) (h : Handle ω) (serial : Nat) :
    (pool.retain h).counts serial = pool.counts serial + weight h serial := by
  cases hanchor : h.anchor with
  | none => simp only [retain, hanchor, weight_of_anchor_none hanchor, Nat.add_zero]
  | some a =>
    simp only [retain, hanchor, counts_recount, weight_of_anchor_some hanchor]
    split <;> rfl

@[simp] theorem live_retain (pool : Pool ω) (h : Handle ω) : (pool.retain h).live = pool.live := by
  cases hanchor : h.anchor <;> simp [retain, hanchor, recount]

@[simp] theorem serial_retain (pool : Pool ω) (h : Handle ω) :
    (pool.retain h).serial = pool.serial := by
  cases hanchor : h.anchor <;> simp [retain, hanchor, recount]

@[simp] theorem released_retain (pool : Pool ω) (h : Handle ω) :
    (pool.retain h).released = pool.released := by
  cases hanchor : h.anchor <;> simp [retain, hanchor, recount]

@[simp] theorem live_letGo (pool : Pool ω) (h : Handle ω) : (pool.letGo h).live = pool.live := by
  unfold letGo
  split
  · dsimp only
    split <;> rfl
  · rfl

@[simp] theorem serial_letGo (pool : Pool ω) (h : Handle ω) :
    (pool.letGo h).serial = pool.serial := by
  unfold letGo
  split
  · dsimp only
    split <;> rfl
  · rfl

/-- **Counting a handle off leaves the count of the others,** and gives back what only that handle
kept. -/
theorem letGo_spec (pool : Pool ω) (h : Handle ω)
    (counts : ∀ serial, pool.counts serial = references pool.live serial + weight h serial) :
    (∀ serial, (pool.letGo h).counts serial = references pool.live serial) ∧
      (pool.letGo h).released = pool.released ++ (h.freed (pool.live.map (·.2))).toList := by
  cases hanchor : h.anchor with
  | none =>
    rw [letGo, Handle.freed, hanchor]
    refine ⟨fun serial => ?_, (List.append_nil _).symm⟩
    rw [counts, weight_of_anchor_none hanchor, Nat.add_zero]
  | some a =>
    have hcounts : ∀ serial,
        (pool.recount a.serial (· - 1)).counts serial = references pool.live serial := by
      intro serial
      rw [counts_recount, counts, weight_of_anchor_some hanchor]
      split <;> omega
    simp only [letGo, Handle.freed, hanchor, hcounts, references_eq_zero_iff]
    by_cases hkept : (pool.live.map (·.2)).any (·.refersTo a.serial)
    · rw [if_neg (by simp [hkept]), if_pos (.inr hkept)]
      exact ⟨hcounts, (List.append_nil _).symm⟩
    · by_cases hptr : a.ptr = 0
      · rw [if_neg (by simp [hptr]), if_pos (.inl hptr)]
        exact ⟨hcounts, (List.append_nil _).symm⟩
      · rw [if_pos ⟨by simpa using hkept, hptr⟩, if_neg (by simp [hkept, hptr])]
        exact ⟨hcounts, rfl⟩

/-- A pool has become another with the handles `others`, in which the old one of `name` is gone. -/
structure Replaced (pool : Pool ω) (name : String) (others : List (String × Handle ω))
    (pool' : Pool ω) : Prop where
  live : pool'.live = others
  serial : pool'.serial = pool.serial
  counts : ∀ serial, pool'.counts serial = references others serial
  released : pool'.released =
    pool.released ++ ((pool.get? name).bind (·.freed (others.map (·.2)))).toList

theorem replaced_replace {pool : Pool ω} {name : String} {live : List (String × Handle ω)}
    (counts : ∀ serial, pool.counts serial =
      references live serial + (pool.get? name).elim 0 (weight · serial)) :
    pool.Replaced name live (pool.replace name live) := by
  unfold replace
  cases hold : pool.get? name with
  | none =>
    refine ⟨rfl, rfl, fun serial => ?_, ?_⟩
    · simpa [hold] using counts serial
    · rw [hold]
      exact (List.append_nil _).symm
  | some old =>
    obtain ⟨hcounts, hreleased⟩ := letGo_spec { pool with live } old
      fun serial => by simpa [hold] using counts serial
    refine ⟨live_letGo .., serial_letGo .., hcounts, ?_⟩
    rw [hold]
    exact hreleased

theorem Counted.put {pool : Pool ω} (h : pool.Counted) (name : String) (new : Handle ω) :
    pool.Replaced name ((name, new) :: pool.without name) (pool.put name new) := by
  have hget : (pool.retain new).get? name = pool.get? name := by
    rw [get?, get?, live_retain]
  have hreplaced : (pool.retain new).Replaced name ((name, new) :: pool.without name)
      (pool.put name new) := by
    refine replaced_replace fun serial => ?_
    rw [counts_retain, h.counts, references_without h.names name, references_cons, hget]
    exact Nat.add_right_comm ..
  refine ⟨hreplaced.live, hreplaced.serial.trans (serial_retain ..), hreplaced.counts, ?_⟩
  rw [hreplaced.released, released_retain, hget]

theorem Counted.drop {pool : Pool ω} (h : pool.Counted) (name : String) :
    pool.Replaced name (pool.without name) (pool.drop name) :=
  replaced_replace fun serial => by rw [h.counts, references_without h.names name]

end Pool
end Bindery
