/-
# Writers of one source

A source is staged under a name beside its path and then published by renaming. Both steps are
atomic, but several writers of one path, in processes that share a build directory, use one staging
name. So what a turn does depends on the turn before it, whoever had that:

| turn | the turn before | staging name | path | writer |
| --- | --- | --- | --- | --- |
| first of a writer | any | its text | as before | goes on |
| second of a writer | a first one | no file | the text that was staged last | ends well |
| second of a writer | a second one | no file | as before | ends with `missing` |

Once every writer had its two turns, the path holds the whole text of one of them and nothing is
left under the staging name, in whatever order the turns were. But all writers end well only if they
wrote one after the other (`Writers.run_complete`). When two of them overlap, one finds that what
was staged is published already, and gone.
-/

import Bindery.Proofs.Host.Directory
import Bindery.Source.Unit
import Mathlib.Data.List.Count
import Mathlib.Data.List.Induction
import Mathlib.Data.List.Nodup
import Mathlib.Logic.Function.Basic

namespace Bindery

/-- How far a writer has come. -/
inductive Progress where
  | waiting
  | staged
  | ended (result : Except FileError Unit)

/-- How far a writer can be after a number of turns. -/
inductive Progress.Behind : Nat → Progress → Prop
  | waiting : Behind 0 .waiting
  | staged : Behind 1 .staged
  | well : Behind 2 (.ended (.ok ()))
  | late : Behind 2 (.ended (.error .missing))

/-- Files that writers share. -/
structure Writers (ι L : Type) where
  files : Files L
  progress : ι → Progress := fun _ => .waiting

namespace Writers

variable {ι L : Type} [DecidableEq ι]

/-- A writer takes a step on the files, and goes on from there unless the step fails. -/
def advance (s : Writers ι L) (i : ι) (step : Except FileError (Files L)) (next : Progress) :
    Writers ι L :=
  match step with
  | .ok files => ⟨files, Function.update s.progress i next⟩
  | .error e => { s with progress := Function.update s.progress i (.ended (.error e)) }

/-- A turn of a writer: it stages its unit, then publishes what is staged, and then has ended. -/
def turn (path : String) (unit : ι → Source.Unit) (s : Writers ι L) (i : ι) : Writers ι L :=
  match s.progress i with
  | .waiting => s.advance i (s.files.stage path (Text.encode (unit i).text)) .staged
  | .staged => s.advance i (s.files.publish path) (.ended (.ok ()))
  | .ended _ => s

/-- Turns in the order of a schedule, from files on which no writer has begun. -/
def run (path : String) (unit : ι → Source.Unit) (files : Files L) (schedule : List ι) :
    Writers ι L :=
  schedule.foldl (turn path unit) { files }

variable {path : String} {unit : ι → Source.Unit}

/-! ### One turn -/

theorem turn_of_waiting {s : Writers ι L} {i : ι} (h : s.progress i = .waiting) :
    turn path unit s i =
      s.advance i (s.files.stage path (Text.encode (unit i).text)) .staged := by
  rw [turn, h]

theorem turn_of_staged {s : Writers ι L} {i : ι} (h : s.progress i = .staged) :
    turn path unit s i = s.advance i (s.files.publish path) (.ended (.ok ())) := by
  rw [turn, h]

/-- A turn changes the progress of one writer only. -/
theorem progress_turn_of_ne (s : Writers ι L) {i j : ι} (h : j ≠ i) :
    (turn path unit s i).progress j = s.progress j := by
  have hadvance : ∀ step next, (s.advance i step next).progress j = s.progress j := by
    intro step next
    cases step <;> exact Function.update_of_ne h _ _
  unfold turn
  split
  · exact hadvance _ _
  · exact hadvance _ _
  · rfl

/-- **Two turns in a row replace the source.** -/
theorem turn_turn {s : Writers ι L} {i : ι} (h : s.progress i = .waiting) :
    turn path unit (turn path unit s i) i =
      ⟨s.files.save path (Text.encode (unit i).text), Function.update s.progress i
        (.ended ((s.files.replace path (Text.encode (unit i).text)).map fun _ => ()))⟩ := by
  rw [turn_of_waiting h, Files.save, Files.replace]
  cases hstage : s.files.stage path (Text.encode (unit i).text) with
  | error e =>
    have hended : (s.advance i (.error e) .staged).progress i = .ended (.error e) :=
      Function.update_self ..
    rw [turn, hended]
    rfl
  | ok staged =>
    have hstaged : (s.advance i (.ok staged) .staged).progress i = .staged :=
      Function.update_self ..
    rw [turn_of_staged hstaged]
    show advance _ i (staged.publish path) _ = _
    show _ = (⟨_, Function.update s.progress i
      (.ended ((staged.publish path).map fun _ => ()))⟩ : Writers ι L)
    cases hpublish : staged.publish path with
    | error e => simp [advance, Except.map, hpublish]
    | ok published => simp [advance, Except.map, hpublish]

theorem run_concat (files : Files L) (schedule : List ι) (i : ι) :
    run path unit files (schedule ++ [i]) = turn path unit (run path unit files schedule) i := by
  rw [run, List.foldl_append]
  rfl

/-! ### Any order of turns -/

theorem count_concat_of_ne (schedule : List ι) {i j : ι} (h : j ≠ i) :
    (schedule ++ [i]).count j = schedule.count j := by
  rw [List.count_append, List.count_singleton, if_neg (by simpa using h.symm), Nat.add_zero]

theorem count_concat_self (schedule : List ι) (i : ι) :
    (schedule ++ [i]).count i = schedule.count i + 1 := by
  rw [List.count_append, List.count_singleton_self]

/-- The text of a unit lies at a path. -/
def HasText (s : Writers ι L) (path : String) (u : Source.Unit) : Prop :=
  s.files.get? path = some (.bytes (Text.encode u.text))

/-- Where the writers of a file of a directory are after the turns of a schedule, in which nobody
has more than two. -/
structure After (dir name : String) (unit : ι → Source.Unit) (files : Files L) (schedule : List ι)
    (s : Writers ι L) : Prop where
  beyond : Files.SameBeyond dir files s.files
  progress : ∀ i, (s.progress i).Behind (schedule.count i)
  /-- The last turn was the first of a writer, and its text is staged. -/
  pending : ∀ i ∈ schedule.getLast?, schedule.count i = 1 →
    s.HasText (Files.staging (Path.join dir name)) (unit i)
  /-- The last turn was the second of a writer, and nothing is staged. -/
  gone : ∀ i ∈ schedule.getLast?, schedule.count i = 2 →
    s.files.get? (Files.staging (Path.join dir name)) = none
  /-- Some writer had two turns, so that a text is published, and some writer has ended well. -/
  published : ∀ i, schedule.count i = 2 →
    (∃ j, s.HasText (Path.join dir name) (unit j)) ∧ ∃ j, s.progress j = .ended (.ok ())

variable {dir name : String} {files : Files L} {schedule : List ι} {s : Writers ι L}

theorem after_nil (dir name : String) (unit : ι → Source.Unit) (files : Files L) :
    After dir name unit files [] { files } where
  beyond := .refl dir files
  progress := fun _ => .waiting
  pending := nofun
  gone := nofun
  published := nofun

namespace After

theorem progress_eq_waiting (h : After dir name unit files schedule s) {i : ι}
    (hi : schedule.count i = 0) : s.progress i = .waiting := by
  have hbehind := h.progress i
  rw [hi] at hbehind
  generalize s.progress i = now at hbehind
  cases hbehind
  rfl

theorem progress_eq_staged (h : After dir name unit files schedule s) {i : ι}
    (hi : schedule.count i = 1) : s.progress i = .staged := by
  have hbehind := h.progress i
  rw [hi] at hbehind
  generalize s.progress i = now at hbehind
  cases hbehind
  rfl

theorem progress_eq_ended (h : After dir name unit files schedule s) {i : ι}
    (hi : schedule.count i = 2) :
    s.progress i = .ended (.ok ()) ∨ s.progress i = .ended (.error .missing) := by
  have hbehind := h.progress i
  rw [hi] at hbehind
  generalize s.progress i = now at hbehind
  cases hbehind with
  | well => exact .inl rfl
  | late => exact .inr rfl

theorem not_blocked (h : After dir name unit files schedule s) (hname : Path.IsName name)
    (hfree : files.blocked (Path.join dir name) = false) :
    s.files.isDirectory (Files.staging (Path.join dir name)) = false ∧
      s.files.isDirectory (Path.join dir name) = false := by
  have hblocked := (h.beyond.blocked hname).trans hfree
  rwa [Files.blocked, Bool.or_eq_false_iff] at hblocked

/-- Only the writer whose turn it was has come further. -/
theorem progress_concat (h : After dir name unit files schedule s) {i : ι} {next : Progress}
    (hnext : next.Behind (schedule.count i + 1)) (j : ι) :
    (Function.update s.progress i next j).Behind ((schedule ++ [i]).count j) := by
  by_cases hj : j = i
  · subst hj
    rwa [Function.update_self, count_concat_self]
  · rw [Function.update_of_ne hj, count_concat_of_ne schedule hj]
    exact h.progress j

/-- The first turn of a writer. -/
theorem first (h : After dir name unit files schedule s) (hname : Path.IsName name)
    (hfree : files.blocked (Path.join dir name) = false) {i : ι} (hi : schedule.count i = 0) :
    After dir name unit files (schedule ++ [i]) (turn (Path.join dir name) unit s i) := by
  have hwaiting := h.progress_eq_waiting hi
  have hturn : turn (Path.join dir name) unit s i =
      ⟨s.files.put (Files.staging (Path.join dir name)) (.bytes (Text.encode (unit i).text)),
        Function.update s.progress i .staged⟩ := by
    rw [turn_of_waiting hwaiting, Files.stage, Files.write, (h.not_blocked hname hfree).1]
    rfl
  have hone : (schedule ++ [i]).count i = 1 := by rw [count_concat_self, hi]
  rw [hturn]
  constructor
  case beyond => exact h.beyond.trans (.put (Path.holds_staging hname) _)
  case progress => exact h.progress_concat (by rw [hi]; exact .staged)
  case pending =>
    intro j hj _
    rw [List.getLast?_concat] at hj
    obtain rfl := Option.some.inj hj
    rw [HasText, Files.get?_put, if_pos rfl]
  case gone =>
    intro j hj htwo
    rw [List.getLast?_concat] at hj
    obtain rfl := Option.some.inj hj
    omega
  case published =>
    intro j hj
    have hji : j ≠ i := by
      rintro rfl
      omega
    obtain ⟨⟨k, htext⟩, l, hwell⟩ :=
      h.published j (by rwa [count_concat_of_ne schedule hji] at hj)
    have hli : l ≠ i := by
      rintro rfl
      cases hwaiting.symm.trans hwell
    refine ⟨⟨k, ?_⟩, l, (Function.update_of_ne hli _ _).trans hwell⟩
    rw [HasText, Files.get?_put, if_neg (Files.staging_ne_self _)]
    exact htext

/-- The second turn of a writer, behind the first turn of one: what is staged is published. -/
theorem second_of_pending (h : After dir name unit files schedule s) (hname : Path.IsName name)
    (hfree : files.blocked (Path.join dir name) = false) {i j : ι} (hi : schedule.count i = 1)
    (hj : j ∈ schedule.getLast?) (hone : schedule.count j = 1) :
    (turn (Path.join dir name) unit s i).progress i = .ended (.ok ()) ∧
      After dir name unit files (schedule ++ [i]) (turn (Path.join dir name) unit s i) := by
  have hturn : turn (Path.join dir name) unit s i =
      ⟨(s.files.remove (Files.staging (Path.join dir name))).put (Path.join dir name)
          (.bytes (Text.encode (unit j).text)),
        Function.update s.progress i (.ended (.ok ()))⟩ := by
    have hstaged : s.files.get? _ = _ := h.pending j hj hone
    rw [turn_of_staged (h.progress_eq_staged hi), Files.publish, Files.rename, hstaged,
      (h.not_blocked hname hfree).2]
    rfl
  have hself : Function.update s.progress i (.ended (.ok ())) i = .ended (.ok ()) :=
    Function.update_self ..
  have htwo : (schedule ++ [i]).count i = 2 := by rw [count_concat_self, hi]
  rw [hturn]
  refine ⟨hself, ?_⟩
  constructor
  case beyond =>
    exact h.beyond.trans ((Files.SameBeyond.remove (Path.holds_staging hname)).trans
      (.put (Path.holds_join hname) _))
  case progress => exact h.progress_concat (by rw [hi]; exact .well)
  case pending =>
    intro k hk hcount
    rw [List.getLast?_concat] at hk
    obtain rfl := Option.some.inj hk
    omega
  case gone =>
    intro k _ _
    rw [Files.get?_put, if_neg (Files.staging_ne_self _).symm, Files.get?_remove, if_pos rfl]
  case published =>
    intro k _
    refine ⟨⟨j, ?_⟩, i, hself⟩
    rw [HasText, Files.get?_put, if_pos rfl]

/-- The second turn of a writer, behind the second turn of one: there is nothing to publish. -/
theorem second_of_gone (h : After dir name unit files schedule s) {i j : ι}
    (hi : schedule.count i = 1) (hj : j ∈ schedule.getLast?) (htwo : schedule.count j = 2) :
    (turn (Path.join dir name) unit s i).progress i = .ended (.error .missing) ∧
      After dir name unit files (schedule ++ [i]) (turn (Path.join dir name) unit s i) := by
  have hstaged := h.progress_eq_staged hi
  have hgone := h.gone j hj htwo
  have hturn : turn (Path.join dir name) unit s i =
      { s with progress := Function.update s.progress i (.ended (.error .missing)) } := by
    rw [turn_of_staged hstaged, Files.publish, Files.rename, hgone]
    rfl
  have hself : Function.update s.progress i (.ended (.error .missing)) i =
      .ended (.error .missing) := Function.update_self ..
  have hcount : (schedule ++ [i]).count i = 2 := by rw [count_concat_self, hi]
  rw [hturn]
  refine ⟨hself, ?_⟩
  constructor
  case beyond => exact h.beyond
  case progress => exact h.progress_concat (by rw [hi]; exact .late)
  case pending =>
    intro k hk hone
    rw [List.getLast?_concat] at hk
    obtain rfl := Option.some.inj hk
    omega
  case gone => exact fun _ _ _ => hgone
  case published =>
    intro k _
    obtain ⟨htext, l, hwell⟩ := h.published j htwo
    have hli : l ≠ i := by
      rintro rfl
      cases hstaged.symm.trans hwell
    exact ⟨htext, l, (Function.update_of_ne hli _ _).trans hwell⟩

/-- The last turn was the first or the second of a writer. -/
theorem exists_last (hcount : ∀ i, schedule.count i ≤ 2) {i : ι} (hi : schedule.count i ≠ 0) :
    ∃ j ∈ schedule.getLast?, schedule.count j = 1 ∨ schedule.count j = 2 := by
  cases hlast : schedule.getLast? with
  | none =>
    rw [List.getLast?_eq_none_iff.1 hlast] at hi
    exact absurd List.count_nil hi
  | some j =>
    have hpos := List.count_pos_iff.2 (List.mem_of_mem_getLast? hlast)
    have htwo := hcount j
    exact ⟨j, rfl, by omega⟩

end After

/-- **What is so after any turns.** Induction on the schedule, by its last turn. -/
theorem after_run (hname : Path.IsName name) (hfree : files.blocked (Path.join dir name) = false)
    (unit : ι → Source.Unit) (hcount : ∀ i, schedule.count i ≤ 2) :
    After dir name unit files schedule (run (Path.join dir name) unit files schedule) := by
  induction schedule using List.reverseRecOn with
  | nil => exact after_nil dir name unit files
  | append_singleton schedule i ih =>
    have hbefore : ∀ j, schedule.count j ≤ 2 := fun j =>
      Nat.le_trans (List.Sublist.count_le j (List.sublist_append_left schedule [i])) (hcount j)
    have hi : schedule.count i = 0 ∨ schedule.count i = 1 := by
      have := hcount i
      rw [count_concat_self] at this
      omega
    have hafter := ih hbefore
    rw [run_concat]
    rcases hi with hzero | hone
    · exact hafter.first hname hfree hzero
    · obtain ⟨j, hj, hlast | hlast⟩ := After.exists_last hbefore (hone ▸ Nat.one_ne_zero)
      · exact (hafter.second_of_pending hname hfree hone hj hlast).2
      · exact (hafter.second_of_gone hone hj hlast).2

/-! ### One writer after the other -/

/-- The turns of writers that write one after the other. -/
def inTurn {ι : Type} (order : List ι) : List ι := order.flatMap fun i => [i, i]

theorem inTurn_concat {ι : Type} (order : List ι) (i : ι) :
    inTurn (order ++ [i]) = inTurn order ++ [i] ++ [i] := by
  simp [inTurn]

theorem count_inTurn (order : List ι) (i : ι) : (inTurn order).count i = 2 * order.count i := by
  induction order with
  | nil => rfl
  | cons j order ih =>
    rw [inTurn, List.flatMap_cons, List.count_append, ← inTurn, ih, List.count_cons,
      List.count_cons, List.count_nil, List.count_cons]
    omega

/-- Nobody has ended badly. -/
def Well (s : Writers ι L) : Prop := ∀ i r, s.progress i = .ended r → r = .ok ()

/-- What has ended stays so. -/
theorem Well.of_turn {i : ι} (h : (turn path unit s i).Well) : s.Well := by
  intro j r hj
  by_cases hji : j = i
  · subst hji
    refine h j r ?_
    rwa [turn, hj]
  · exact h j r (by rwa [progress_turn_of_ne s hji])

/-- **Writers that all end well write one after the other.** Induction on the length of the
schedule, of which the last two turns are those of one writer: the last one is the second turn of a
writer, the last but one has to be a first turn, and this writer has no other turn left. -/
theorem exists_order (hname : Path.IsName name)
    (hfree : files.blocked (Path.join dir name) = false) (unit : ι → Source.Unit)
    (schedule : List ι) (hcount : ∀ i, schedule.count i = 0 ∨ schedule.count i = 2)
    (hwell : (run (Path.join dir name) unit files schedule).Well) :
    ∃ order, schedule = inTurn order := by
  rcases List.eq_nil_or_concat schedule with rfl | ⟨before, i, rfl⟩
  · exact ⟨[], rfl⟩
  · rw [List.concat_eq_append] at hcount hwell ⊢
    have hone : before.count i = 1 := by
      have := hcount i
      rw [count_concat_self] at this
      omega
    have hbefore : ∀ j, before.count j ≤ 2 := fun j => by
      by_cases hji : j = i
      · subst hji
        omega
      · have := hcount j
        rw [count_concat_of_ne before hji] at this
        omega
    rw [run_concat] at hwell
    have hafter := after_run hname hfree unit hbefore
    obtain ⟨j, hj, hfirst | hsecond⟩ := After.exists_last hbefore (hone ▸ Nat.one_ne_zero)
    · obtain rfl : j = i := by
        by_contra hji
        have := hcount j
        rw [count_concat_of_ne before hji] at this
        omega
      obtain ⟨rest, rfl⟩ := List.getLast?_eq_some_iff.1 hj
      rw [run_concat] at hwell
      have hrest : ∀ k, rest.count k = 0 ∨ rest.count k = 2 := by
        intro k
        by_cases hkj : k = j
        · subst hkj
          rw [count_concat_self] at hone
          omega
        · have := hcount k
          rwa [count_concat_of_ne _ hkj, count_concat_of_ne _ hkj] at this
      obtain ⟨order, rfl⟩ := exists_order hname hfree unit rest hrest hwell.of_turn.of_turn
      exact ⟨order ++ [j], (inTurn_concat order j).symm⟩
    · have hlate := (hafter.second_of_gone hone hj hsecond).1
      exact absurd (hwell i _ hlate) nofun
termination_by schedule.length

/-- Whoever comes behind writers that write one after the other has had no turn. -/
theorem after_inTurn (hname : Path.IsName name)
    (hfree : files.blocked (Path.join dir name) = false) (unit : ι → Source.Unit) {order : List ι}
    {i : ι} (hnodup : (order ++ [i]).Nodup) :
    After dir name unit files (inTurn order)
        (run (Path.join dir name) unit files (inTurn order)) ∧
      (inTurn order).count i = 0 := by
  obtain ⟨hbefore, -, hnew⟩ := List.nodup_append.1 hnodup
  refine ⟨after_run hname hfree unit fun j => ?_, ?_⟩
  · have := List.nodup_iff_count_le_one.1 hbefore j
    rw [count_inTurn]
    omega
  · rw [count_inTurn, List.count_eq_zero.2 fun hmem =>
      hnew i hmem i (List.mem_singleton_self i) rfl]

/-- Writers that write one after the other end well. Induction on their order. -/
theorem well_inTurn (hname : Path.IsName name)
    (hfree : files.blocked (Path.join dir name) = false) {order : List ι} (hnodup : order.Nodup) :
    (run (Path.join dir name) unit files (inTurn order)).Well := by
  induction order using List.reverseRecOn with
  | nil => exact fun i r h => absurd h nofun
  | append_singleton order i ih =>
    obtain ⟨hafter, hzero⟩ := after_inTurn hname hfree unit hnodup
    have hone : (inTurn order ++ [i]).count i = 1 := by rw [count_concat_self, hzero]
    rw [inTurn_concat, run_concat, run_concat]
    have hstaged := hafter.first hname hfree hzero
    have hends := (hstaged.second_of_pending hname hfree hone (List.getLast?_concat ..) hone).1
    intro j r hj
    by_cases hji : j = i
    · subst hji
      rw [hends] at hj
      exact (Progress.ended.inj hj).symm
    · rw [progress_turn_of_ne _ hji, progress_turn_of_ne _ hji] at hj
      exact ih (hnodup.sublist (List.sublist_append_left order [i])) j r hj

/-- Writers that write one after the other leave the files as if each had saved its text in one
step. Induction on their order. -/
theorem files_inTurn (hname : Path.IsName name)
    (hfree : files.blocked (Path.join dir name) = false) {order : List ι} (hnodup : order.Nodup) :
    (run (Path.join dir name) unit files (inTurn order)).files =
      order.foldl (fun files i => files.save (Path.join dir name) (Text.encode (unit i).text))
        files := by
  induction order using List.reverseRecOn with
  | nil => rfl
  | append_singleton order i ih =>
    obtain ⟨hafter, hzero⟩ := after_inTurn hname hfree unit hnodup
    rw [inTurn_concat, run_concat, run_concat, turn_turn (hafter.progress_eq_waiting hzero),
      List.foldl_append, ← ih (hnodup.sublist (List.sublist_append_left order [i]))]
    rfl

/-- **What comes of several writers of one source.** Each of them has its two turns, in any order.
Then the path holds the whole text of one of them, and nothing is left where they staged theirs.
Each has ended well or has found nothing to publish, and one of them has ended well. All of them
have if and only if they wrote one after the other, and then each has saved its text as if in one
step. -/
theorem run_complete [Nonempty ι] (hname : Path.IsName name)
    (hfree : files.blocked (Path.join dir name) = false) (unit : ι → Source.Unit)
    (hturns : ∀ i, schedule.count i = 2) :
    let s := run (Path.join dir name) unit files schedule
    (∃ i, s.files.read? (Path.join dir name) = some (Text.encode (unit i).text)) ∧
      s.files.isFile (Files.staging (Path.join dir name)) = false ∧
      (∀ i, s.progress i = .ended (.ok ()) ∨ s.progress i = .ended (.error .missing)) ∧
      (∃ i, s.progress i = .ended (.ok ())) ∧
      ((∀ i, s.progress i = .ended (.ok ())) ↔ ∃ order, schedule = inTurn order) ∧
      ∀ order, schedule = inTurn order → s.files =
        order.foldl (fun files i => files.save (Path.join dir name) (Text.encode (unit i).text))
          files := by
  intro s
  have hcount : ∀ i, schedule.count i ≤ 2 := fun i => Nat.le_of_eq (hturns i)
  have hafter := after_run hname hfree unit hcount
  obtain ⟨i₀⟩ := ‹Nonempty ι›
  obtain ⟨⟨i, htext⟩, hwell⟩ := hafter.published i₀ (hturns i₀)
  have hended : ∀ i, s.progress i = .ended (.ok ()) ∨ s.progress i = .ended (.error .missing) :=
    fun i => hafter.progress_eq_ended (hturns i)
  have hnodup : ∀ order, schedule = inTurn order → order.Nodup := by
    rintro order rfl
    refine List.nodup_iff_count_le_one.2 fun k => ?_
    have := hturns k
    rw [count_inTurn] at this
    omega
  refine ⟨⟨i, ?_⟩, ?_, hended, hwell, ⟨fun hall => ?_, ?_⟩, fun order horder => ?_⟩
  · rw [Files.read?, show s.files.get? _ = _ from htext]
  · obtain ⟨j, hj, -⟩ := After.exists_last hcount (i := i₀) (by rw [hturns]; decide)
    rw [Files.isFile, show s.files.get? _ = _ from hafter.gone j hj (hturns j)]
    rfl
  · refine exists_order hname hfree unit schedule (fun i => .inr (hturns i)) fun i r hr => ?_
    exact (Progress.ended.inj ((hall i).symm.trans hr)).symm
  · rintro ⟨order, horder⟩ j
    rcases hended j with hj | hj
    · exact hj
    · subst horder
      cases well_inTurn hname hfree (hnodup order rfl) j _ hj
  · subst horder
    exact files_inTurn hname hfree (hnodup order rfl)

/-- Two units of different texts. -/
def twoUnits (i : Fin 2) : Source.Unit := { pragmaOnce := decide (i = 0) }

/-- The hypotheses of `run_complete` are satisfiable: two writers, one after the other, end well. -/
theorem run_complete_two :
    Path.IsName "f.cpp" ∧
      ({} : Files String).blocked (Path.join "/build" "f.cpp") = false ∧
      (∀ i : Fin 2, [1, 1, 0, 0].count i = 2) ∧
      ∀ i, (run (Path.join "/build" "f.cpp") twoUnits ({} : Files String) [1, 1, 0, 0]).progress i =
        .ended (.ok ()) := by
  have hname : Path.IsName "f.cpp" := ⟨by decide, by decide⟩
  have hfree : ({} : Files String).blocked (Path.join "/build" "f.cpp") = false := by
    decide +kernel
  have hturns : ∀ i : Fin 2, [1, 1, 0, 0].count i = 2 := by decide
  refine ⟨hname, hfree, hturns, ?_⟩
  exact (run_complete hname hfree twoUnits hturns).2.2.2.2.1.2 ⟨[1, 0], rfl⟩

/-- Two writers that both stage before either publishes: the second finds nothing to publish. -/
theorem not_well_overlapping :
    Path.IsName "f.cpp" ∧
      ({} : Files String).blocked (Path.join "/build" "f.cpp") = false ∧
      (∀ i : Fin 2, [0, 1, 0, 1].count i = 2) ∧
      (run (Path.join "/build" "f.cpp") twoUnits ({} : Files String) [0, 1, 0, 1]).progress 1 =
        .ended (.error .missing) :=
  ⟨⟨by decide, by decide⟩, by decide +kernel, by decide, rfl⟩

end Writers
end Bindery
