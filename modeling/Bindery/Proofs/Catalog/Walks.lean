/-
# Every lookup ends

A lineage follows references, following a reference asks for the lineage of its owner, and what it
finds may refer on. The rules of this are listed here as three relations that take a walk to a walk
and keep a log. They count no steps and have no bound:

| relation | is about | ends at once if |
| --- | --- | --- |
| `Follows` | a reference | it has no dot, was followed before, or is being followed |
| `Lists` | a lineage behind the names seen | there is no class or its name was seen |
| `Aliases` | the target of an alias of a class | the class has no such alias |

A log says which references had their owners searched (`Event.search`), what each reference that
was met led to (`Event.found`, `Event.cut`) and which lineages were listed on the way.

The rules leave no choice (`Lists.unique`), and every lookup of a catalog ends by them, in the walk
and with the result that the catalog gives (`exists_lists`, `exists_aliases`): a reference is
entered only if it is not being followed, so no more can be pending than the catalog writes down,
and a lineage goes on only with a new name. What is searched becomes settled, so within one lookup
no owner is searched twice for one reference (`Follows.once`).
-/

import Bindery.Catalog.Lineage
import Mathlib.Data.List.Basic
import Mathlib.Data.List.Nodup
import Mathlib.Data.List.Perm.Subperm

namespace Bindery

/-- What an alias stands for. -/
def Member.target? : Member → Option String
  | .alias _ target => some target
  | _ => none

namespace Catalog

/-- Something that happens in a lookup. -/
inductive Event where
  /-- The members of a reference's owner are searched for the alias. -/
  | search (reference : String)
  /-- A reference led to a class, or nowhere. -/
  | found (reference : String) (target : Option ClassEntry)
  /-- A reference was met while it was being followed. -/
  | cut (reference : String)
  /-- The lineage of an owner was listed. -/
  | listed (owner : String) (line : List ClassEntry)

/-- The references whose owners were searched, first to last. -/
def searches (log : List Event) : List String :=
  log.filterMap fun
    | .search reference => some reference
    | _ => none

@[simp] theorem searches_nil : searches [] = [] := rfl

@[simp] theorem searches_append (log log' : List Event) :
    searches (log ++ log') = searches log ++ searches log' := List.filterMap_append

@[simp] theorem searches_search (reference : String) (log : List Event) :
    searches (.search reference :: log) = reference :: searches log := rfl

@[simp] theorem searches_found (reference : String) (target : Option ClassEntry)
    (log : List Event) : searches (.found reference target :: log) = searches log := rfl

@[simp] theorem searches_cut (reference : String) (log : List Event) :
    searches (.cut reference :: log) = searches log := rfl

@[simp] theorem searches_listed (owner : String) (line : List ClassEntry) (log : List Event) :
    searches (.listed owner line :: log) = searches log := rfl

mutual

/-- A reference is followed. -/
inductive Follows (m : Catalog) :
    String → Walk → List Event → Option ClassEntry → Walk → Prop
  | name {r : String} {w : Walk} (plain : splitAlias? r = none) :
    Follows m r w [.found r (m.class? r)] (m.class? r) w
  | settled {r : String} {w : Walk} {found : Option ClassEntry} {parts : String × String}
    (dotted : splitAlias? r = some parts) (known : w.settled? r = some found) :
    Follows m r w [.found r found] found w
  | pending {r : String} {w : Walk} {parts : String × String} (dotted : splitAlias? r = some parts)
    (unknown : w.settled? r = none) (met : r ∈ w.pending) : Follows m r w [.cut r] none w
  | searched {r owner name : String} {w w' : Walk} {log : List Event} {found : Option ClassEntry}
    (dotted : splitAlias? r = some (owner, name)) (unknown : w.settled? r = none)
    (new : r ∉ w.pending) (inner : Aliases m owner name (w.enter r) log found w') :
    Follows m r w (.search r :: (log ++ [.found r found])) found (w'.settle r found)

/-- The lineage from a class on is listed, behind the names that were seen. -/
inductive Lists (m : Catalog) :
    List String → Option ClassEntry → Walk → List Event → List ClassEntry → Walk → Prop
  | nobody {seen : List String} {w : Walk} : Lists m seen none w [] [] w
  | repeated {seen : List String} {c : ClassEntry} {w : Walk} (old : c.name ∈ seen) :
    Lists m seen (some c) w [] [] w
  | root {seen : List String} {c : ClassEntry} {w : Walk} (new : c.name ∉ seen)
    (last : c.parent = none) : Lists m seen (some c) w [] [c] w
  | child {seen : List String} {c : ClassEntry} {w w₁ w₂ : Walk} {parent : String}
    {log log' : List Event} {next : Option ClassEntry} {line : List ClassEntry}
    (new : c.name ∉ seen) (refers : c.parent = some parent) (up : Follows m parent w log next w₁)
    (rest : Lists m (c.name :: seen) next w₁ log' line w₂) :
    Lists m seen (some c) w (log ++ log') (c :: line) w₂

/-- The target of an alias of a class is followed. -/
inductive Aliases (m : Catalog) :
    String → String → Walk → List Event → Option ClassEntry → Walk → Prop
  | nothing {owner name : String} {w w₁ : Walk} {log : List Event} {line : List ClassEntry}
    (lists : Lists m [] (m.class? owner) w log line w₁)
    (empty : (firstNamed line name).bind Member.target? = none) :
    Aliases m owner name w (log ++ [.listed owner line]) none w₁
  | target {owner name target : String} {w w₁ w₂ : Walk} {log log' : List Event}
    {line : List ClassEntry} {found : Option ClassEntry}
    (lists : Lists m [] (m.class? owner) w log line w₁)
    (refers : (firstNamed line name).bind Member.target? = some target)
    (follows : Follows m target w₁ log' found w₂) :
    Aliases m owner name w (log ++ .listed owner line :: log') found w₂

end

/-! ### The rules leave no choice -/

mutual

theorem Follows.unique {m : Catalog} {r : String} {w w₁ w₂ : Walk} {log₁ log₂ : List Event}
    {found₁ found₂ : Option ClassEntry} :
    Follows m r w log₁ found₁ w₁ → Follows m r w log₂ found₂ w₂ →
      log₁ = log₂ ∧ found₁ = found₂ ∧ w₁ = w₂
  | .name plain, h => by
    cases h with
    | name => exact ⟨rfl, rfl, rfl⟩
    | settled dotted | pending dotted | searched dotted =>
      rw [plain] at dotted
      exact absurd dotted nofun
  | .settled dotted known, h => by
    cases h with
    | name plain =>
      rw [plain] at dotted
      exact absurd dotted nofun
    | settled _ known' =>
      obtain rfl := Option.some.inj (known.symm.trans known')
      exact ⟨rfl, rfl, rfl⟩
    | pending _ unknown | searched _ unknown =>
      rw [unknown] at known
      exact absurd known nofun
  | .pending dotted unknown met, h => by
    cases h with
    | name plain =>
      rw [plain] at dotted
      exact absurd dotted nofun
    | settled _ known =>
      rw [unknown] at known
      exact absurd known nofun
    | pending => exact ⟨rfl, rfl, rfl⟩
    | searched _ _ new => exact absurd met new
  | .searched dotted unknown new inner, h => by
    cases h with
    | name plain =>
      rw [plain] at dotted
      exact absurd dotted nofun
    | settled _ known =>
      rw [unknown] at known
      exact absurd known nofun
    | pending _ _ met => exact absurd met new
    | searched dotted' _ _ inner' =>
      obtain ⟨rfl, rfl⟩ := Prod.mk.inj (Option.some.inj (dotted.symm.trans dotted'))
      obtain ⟨rfl, rfl, rfl⟩ := inner.unique inner'
      exact ⟨rfl, rfl, rfl⟩

theorem Lists.unique {m : Catalog} {seen : List String} {current : Option ClassEntry}
    {w w₁ w₂ : Walk} {log₁ log₂ : List Event} {line₁ line₂ : List ClassEntry} :
    Lists m seen current w log₁ line₁ w₁ → Lists m seen current w log₂ line₂ w₂ →
      log₁ = log₂ ∧ line₁ = line₂ ∧ w₁ = w₂
  | .nobody, h => by
    cases h
    exact ⟨rfl, rfl, rfl⟩
  | .repeated old, h => by
    cases h with
    | repeated => exact ⟨rfl, rfl, rfl⟩
    | root new | child new => exact absurd old new
  | .root new last, h => by
    cases h with
    | repeated old => exact absurd old new
    | root => exact ⟨rfl, rfl, rfl⟩
    | child _ refers =>
      rw [last] at refers
      exact absurd refers nofun
  | .child new refers up rest, h => by
    cases h with
    | repeated old => exact absurd old new
    | root _ last =>
      rw [last] at refers
      exact absurd refers nofun
    | child _ refers' up' rest' =>
      obtain rfl := Option.some.inj (refers.symm.trans refers')
      obtain ⟨rfl, rfl, rfl⟩ := up.unique up'
      obtain ⟨rfl, rfl, rfl⟩ := rest.unique rest'
      exact ⟨rfl, rfl, rfl⟩

theorem Aliases.unique {m : Catalog} {owner name : String} {w w₁ w₂ : Walk}
    {log₁ log₂ : List Event} {found₁ found₂ : Option ClassEntry} :
    Aliases m owner name w log₁ found₁ w₁ → Aliases m owner name w log₂ found₂ w₂ →
      log₁ = log₂ ∧ found₁ = found₂ ∧ w₁ = w₂
  | .nothing lists empty, h => by
    cases h with
    | nothing lists' =>
      obtain ⟨rfl, rfl, rfl⟩ := lists.unique lists'
      exact ⟨rfl, rfl, rfl⟩
    | target lists' refers =>
      obtain ⟨-, rfl, -⟩ := lists.unique lists'
      rw [empty] at refers
      exact absurd refers nofun
  | .target lists refers follows, h => by
    cases h with
    | nothing lists' empty =>
      obtain ⟨-, rfl, -⟩ := lists.unique lists'
      rw [empty] at refers
      exact absurd refers nofun
    | target lists' refers' follows' =>
      obtain ⟨rfl, rfl, rfl⟩ := lists.unique lists'
      obtain rfl := Option.some.inj (refers.symm.trans refers')
      obtain ⟨rfl, rfl, rfl⟩ := follows.unique follows'
      exact ⟨rfl, rfl, rfl⟩

end

/-! ### Nothing is searched twice -/

theorem settled?_settle (w : Walk) (r other : String) (found : Option ClassEntry) :
    (w.settle r found).settled? other = if r = other then some found else w.settled? other := by
  by_cases h : r = other <;> simp [Walk.settle, Walk.settled?, h]

/-- What a part of a lookup does to a walk: the references searched were neither settled nor
pending, are searched once and are settled afterwards; what is pending stays pending. -/
structure Once (w : Walk) (log : List Event) (w' : Walk) : Prop where
  pending : w'.pending = w.pending
  settled : ∀ r, (w'.settled? r).isSome ↔ r ∈ searches log ∨ (w.settled? r).isSome
  new : ∀ r ∈ searches log, r ∉ w.pending ∧ w.settled? r = none
  nodup : (searches log).Nodup

namespace Once

theorem idle {w : Walk} {log : List Event} (h : searches log = []) : Once w log w :=
  ⟨rfl, by simp [h], by simp [h], by simp [h]⟩

theorem append {w w₁ w₂ : Walk} {log log' : List Event} (h : Once w log w₁)
    (h' : Once w₁ log' w₂) : Once w (log ++ log') w₂ := by
  have unsettled : ∀ r, w₁.settled? r = none → r ∉ searches log ∧ w.settled? r = none := by
    intro r hr
    have hnot := (h.settled r).not.1 (by simp [hr])
    simpa only [not_or, Option.isSome_iff_ne_none, ne_eq, not_not] using hnot
  constructor
  · rw [h'.pending, h.pending]
  · intro r
    rw [h'.settled, h.settled, searches_append, List.mem_append]
    exact or_left_comm.trans or_assoc.symm
  · intro r hr
    rw [searches_append, List.mem_append] at hr
    rcases hr with hr | hr
    · exact h.new r hr
    · obtain ⟨hpending, hsettled⟩ := h'.new r hr
      exact ⟨h.pending ▸ hpending, (unsettled r hsettled).2⟩
  · rw [searches_append]
    refine List.nodup_append.2 ⟨h.nodup, h'.nodup, fun r hr r' hr' heq => ?_⟩
    exact (unsettled r' (h'.new r' hr').2).1 (heq ▸ hr)

/-- What is searched while a reference is pending differs from it. -/
theorem search {w w' : Walk} {r : String} {log : List Event} (found : Option ClassEntry)
    (unknown : w.settled? r = none) (new : r ∉ w.pending) (h : Once (w.enter r) log w') :
    Once w (.search r :: log) (w'.settle r found) := by
  have hpending : w'.pending = r :: w.pending := h.pending
  constructor
  · show w'.pending.tail = w.pending
    rw [hpending, List.tail_cons]
  · intro other
    rw [settled?_settle, searches_search, List.mem_cons]
    by_cases hr : r = other
    · simp [hr]
    · rw [if_neg hr, h.settled other, or_iff_right (Ne.symm hr)]
      rfl
  · intro other hother
    rcases List.mem_cons.1 hother with rfl | hother
    · exact ⟨new, unknown⟩
    · obtain ⟨hnot, hsettled⟩ := h.new other hother
      exact ⟨fun hmem => hnot (List.mem_cons_of_mem r hmem), hsettled⟩
  · exact List.nodup_cons.2 ⟨fun hr => (h.new r hr).1 (List.mem_cons_self ..), h.nodup⟩

end Once

mutual

theorem Follows.once {m : Catalog} {r : String} {w w' : Walk} {log : List Event}
    {found : Option ClassEntry} : Follows m r w log found w' → Once w log w'
  | .name _ => .idle rfl
  | .settled _ _ => .idle rfl
  | .pending _ _ _ => .idle rfl
  | .searched _ unknown new inner =>
    have hfound : Once _ [.found r found] _ := .idle rfl
    .search found unknown new (inner.once.append hfound)

theorem Lists.once {m : Catalog} {seen : List String} {current : Option ClassEntry}
    {w w' : Walk} {log : List Event} {line : List ClassEntry} :
    Lists m seen current w log line w' → Once w log w'
  | .nobody => .idle rfl
  | .repeated _ => .idle rfl
  | .root _ _ => .idle rfl
  | .child _ _ up rest => up.once.append rest.once

theorem Aliases.once {m : Catalog} {owner name : String} {w w' : Walk} {log : List Event}
    {found : Option ClassEntry} : Aliases m owner name w log found w' → Once w log w'
  | .nothing lists _ => lists.once.append (.idle rfl)
  | .target lists _ follows =>
    have hlisted : Once _ [.listed owner _] _ := .idle rfl
    lists.once.append (hlisted.append follows.once)

end

/-! ### What is found belongs to the catalog -/

/-- The class is the one that its name stands for. -/
def Has (m : Catalog) (c : ClassEntry) : Prop := m.class? c.name = some c

theorem has_of_class? {m : Catalog} {name : String} {c : ClassEntry} (h : m.class? name = some c) :
    m.Has c := by
  have hname : c.name = name := by simpa using List.find?_some h
  rwa [Has, hname]

theorem Has.mem {m : Catalog} {c : ClassEntry} (h : m.Has c) : c ∈ m.classes :=
  List.mem_of_find?_eq_some h

/-- What is settled led to classes of the catalog. -/
def Within (m : Catalog) (w : Walk) : Prop :=
  ∀ r c, w.settled? r = some (some c) → m.Has c

theorem Within.settle {m : Catalog} {w : Walk} {r : String} {found : Option ClassEntry}
    (h : m.Within w) (hfound : ∀ c ∈ found, m.Has c) : m.Within (w.settle r found) := by
  intro other c hc
  rw [settled?_settle] at hc
  split at hc
  · exact hfound c (Option.some.inj hc)
  · exact h other c hc

mutual

theorem Follows.within {m : Catalog} {r : String} {w w' : Walk} {log : List Event}
    {found : Option ClassEntry} :
    Follows m r w log found w' → m.Within w → (∀ c ∈ found, m.Has c) ∧ m.Within w'
  | .name _, hw => ⟨fun _ hc => has_of_class? hc, hw⟩
  | .settled _ known, hw => ⟨fun c hc => hw r c (hc ▸ known), hw⟩
  | .pending _ _ _, hw => ⟨nofun, hw⟩
  | .searched _ _ _ inner, hw => by
    obtain ⟨hfound, hw'⟩ := inner.within hw
    exact ⟨hfound, hw'.settle hfound⟩

theorem Lists.within {m : Catalog} {seen : List String} {current : Option ClassEntry}
    {w w' : Walk} {log : List Event} {line : List ClassEntry} :
    Lists m seen current w log line w' → (∀ c ∈ current, m.Has c) → m.Within w →
      (∀ c ∈ line, m.Has c) ∧ m.Within w'
  | .nobody, _, hw => ⟨nofun, hw⟩
  | .repeated _, _, hw => ⟨nofun, hw⟩
  | .root _ _, hcurrent, hw => ⟨by simpa using hcurrent, hw⟩
  | .child _ _ up rest, hcurrent, hw => by
    obtain ⟨hnext, hw₁⟩ := up.within hw
    obtain ⟨hline, hw₂⟩ := rest.within hnext hw₁
    exact ⟨List.forall_mem_cons.2 ⟨hcurrent _ rfl, hline⟩, hw₂⟩

theorem Aliases.within {m : Catalog} {owner name : String} {w w' : Walk} {log : List Event}
    {found : Option ClassEntry} :
    Aliases m owner name w log found w' → m.Within w → (∀ c ∈ found, m.Has c) ∧ m.Within w'
  | .nothing lists _, hw => ⟨nofun, (lists.within (fun _ hc => has_of_class? hc) hw).2⟩
  | .target lists _ follows, hw =>
    follows.within (lists.within (fun _ hc => has_of_class? hc) hw).2

end

/-- A lineage has each name once, and none that was seen before. -/
theorem Lists.names {m : Catalog} {seen : List String} {current : Option ClassEntry}
    {w w' : Walk} {log : List Event} {line : List ClassEntry} :
    Lists m seen current w log line w' →
      (line.map (·.name)).Nodup ∧ ∀ c ∈ line, c.name ∉ seen
  | .nobody => ⟨List.nodup_nil, nofun⟩
  | .repeated _ => ⟨List.nodup_nil, nofun⟩
  | .root new _ => ⟨List.nodup_singleton _, by simpa using new⟩
  | .child new _ _ rest => by
    obtain ⟨hnodup, hseen⟩ := rest.names
    refine ⟨List.nodup_cons.2 ⟨fun hmem => ?_, hnodup⟩, List.forall_mem_cons.2 ⟨new, ?_⟩⟩
    · obtain ⟨d, hd, hname⟩ := List.mem_map.1 hmem
      exact hseen d hd (hname ▸ List.mem_cons_self ..)
    · exact fun d hd hmem => hseen d hd (List.mem_cons_of_mem _ hmem)

/-- A lineage begins with its class. -/
theorem Lists.head? {m : Catalog} {current : Option ClassEntry} {w w' : Walk} {log : List Event}
    {line : List ClassEntry} (h : Lists m [] current w log line w') : line.head? = current := by
  cases h with
  | nobody | root | child => rfl
  | repeated old => exact absurd old List.not_mem_nil

/-! ### A catalog's lookups are such lookups -/

/-- The lookup of the target of an alias, with a way to follow references. -/
def aliasWith (m : Catalog) (follow : Follow) (owner name : String) (w : Walk) :
    Option ClassEntry × Walk :=
  let line := m.lineageWith follow owner w
  match (firstNamed line.1 name).bind Member.target? with
  | some target => follow target line.2
  | none => (none, line.2)

theorem follow_of_new (m : Catalog) {n : Nat} {r owner name : String} {w : Walk}
    (dotted : splitAlias? r = some (owner, name)) (unknown : w.settled? r = none)
    (new : r ∉ w.pending) :
    m.follow (n + 1) r w =
      let found := m.aliasWith (m.follow n) owner name (w.enter r)
      (found.1, found.2.settle r found.1) := by
  simp only [follow, dotted, unknown, if_neg new, aliasWith]
  rcases firstNamed (m.lineageWith (m.follow n) owner (w.enter r)).1 name with _ | member
  · rfl
  · cases member <;> rfl

theorem resolveAlias?_eq (m : Catalog) (owner name : String) :
    m.resolveAlias? owner name = (m.aliasWith m.followReference owner name {}).1 := by
  simp only [resolveAlias?, aliasWith]
  rcases firstNamed (m.lineageWith m.followReference owner {}).1 name with _ | member
  · rfl
  · cases member <;> rfl

theorem chain_child {follow : Follow} {n : Nat} {seen : List String} {c : ClassEntry} {w : Walk}
    {parent : String} (new : c.name ∉ seen) (refers : c.parent = some parent) :
    chain follow (n + 1) seen (some c) w =
      let next := follow parent w
      let rest := chain follow n (c.name :: seen) next.1 next.2
      (c :: rest.1, rest.2) := by
  simp only [chain, if_neg new, refers]

/-- What holds of a walk throughout a lookup that follows references in `R`. -/
structure Sound (m : Catalog) (R : List String) (w : Walk) : Prop where
  nodup : w.pending.Nodup
  pending : ∀ r ∈ w.pending, r ∈ R ∧ (splitAlias? r).isSome ∧ w.settled? r = none
  within : m.Within w

theorem sound_empty (m : Catalog) (R : List String) : m.Sound R {} :=
  ⟨List.nodup_nil, nofun, nofun⟩

theorem Sound.once {m : Catalog} {R : List String} {w w' : Walk} {log : List Event}
    (h : m.Sound R w) (step : Once w log w') (within : m.Within w') : m.Sound R w' := by
  refine ⟨step.pending ▸ h.nodup, fun r hr => ?_, within⟩
  rw [step.pending] at hr
  obtain ⟨hR, hdotted, hsettled⟩ := h.pending r hr
  refine ⟨hR, hdotted, ?_⟩
  have hnot : ¬ (w'.settled? r).isSome := by
    rw [step.settled, hsettled]
    rintro (hsearch | hnone)
    · exact (step.new r hsearch).1 hr
    · exact absurd hnone nofun
  simpa using hnot

theorem Sound.enter {m : Catalog} {R : List String} {w : Walk} {r : String} (h : m.Sound R w)
    (mem : r ∈ R) (dotted : (splitAlias? r).isSome) (unknown : w.settled? r = none)
    (new : r ∉ w.pending) : m.Sound R (w.enter r) :=
  ⟨List.nodup_cons.2 ⟨new, h.nodup⟩,
    List.forall_mem_cons.2 ⟨⟨mem, dotted, unknown⟩, h.pending⟩, h.within⟩

/-- If as many references are pending as there are, all are. -/
theorem Sound.mem_pending {m : Catalog} {R : List String} {w : Walk} (h : m.Sound R w)
    (full : R.length ≤ w.pending.length) {r : String} (hr : r ∈ R) : r ∈ w.pending := by
  have hsub : w.pending ⊆ R := fun x hx => (h.pending x hx).1
  exact ((h.nodup.subperm hsub).perm_of_length_le full).mem_iff.2 hr

/-- A way to follow references does so by the rules, from walks where `k` are pending. -/
def Obeys (m : Catalog) (R : List String) (k : Nat) (follow : Follow) : Prop :=
  ∀ r ∈ m.references, ∀ w, m.Sound R w → w.pending.length = k →
    ∃ log, Follows m r w log (follow r w).1 (follow r w).2

theorem mem_references_of_parent {m : Catalog} {c : ClassEntry} {parent : String}
    (hc : c ∈ m.classes) (h : c.parent = some parent) : parent ∈ m.references :=
  List.mem_flatMap.2 ⟨c, hc, List.mem_append_left _ (by simp [h])⟩

theorem exists_alias_of_target {line : List ClassEntry} {name target : String}
    (h : (firstNamed line name).bind Member.target? = some target) :
    ∃ c ∈ line, Member.alias name target ∈ c.members := by
  obtain ⟨member, hfirst, htarget⟩ := Option.bind_eq_some_iff.1 h
  obtain ⟨c, hc, hmember⟩ := List.mem_flatMap.1 (List.mem_of_find?_eq_some hfirst)
  have hname : member.name? = some name := by simpa using List.find?_some hfirst
  cases member with
  | «alias» =>
    obtain rfl := Option.some.inj hname
    obtain rfl := Option.some.inj htarget
    exact ⟨c, hc, hmember⟩
  | constructor | field | method | operator => exact absurd htarget nofun

theorem mem_references_of_target {m : Catalog} {line : List ClassEntry} {name target : String}
    (hline : ∀ c ∈ line, c ∈ m.classes)
    (h : (firstNamed line name).bind Member.target? = some target) : target ∈ m.references := by
  obtain ⟨c, hc, halias⟩ := exists_alias_of_target h
  exact List.mem_flatMap.2 ⟨c, hline c hc, List.mem_append_right _
    (List.mem_filterMap.2 ⟨_, halias, rfl⟩)⟩

/-- A lineage is listed by the rules: names do not repeat, so it cannot be longer than the list of
classes. Induction on the classes that are left. -/
theorem exists_lists_chain {m : Catalog} {R : List String} {k n : Nat} {follow : Follow}
    (obeys : m.Obeys R k follow) {seen : List String} {current : Option ClassEntry} {w : Walk}
    (hseen : seen.Nodup) (hnames : seen ⊆ m.classes.map (·.name))
    (hn : m.classes.length ≤ n + seen.length) (hcurrent : ∀ c ∈ current, m.Has c)
    (hw : m.Sound R w) (hk : w.pending.length = k) :
    ∃ log, Lists m seen current w log (chain follow n seen current w).1
      (chain follow n seen current w).2 := by
  induction n generalizing seen current w with
  | zero =>
    cases current with
    | none => exact ⟨[], .nobody⟩
    | some c =>
      have hperm := (hseen.subperm hnames).perm_of_length_le (by simpa using hn)
      have hc : c.name ∈ m.classes.map (·.name) := List.mem_map_of_mem (hcurrent c rfl).mem
      exact ⟨[], .repeated (hperm.mem_iff.2 hc)⟩
  | succ n ih =>
    cases current with
    | none => exact ⟨[], .nobody⟩
    | some c =>
      have hc := hcurrent c rfl
      by_cases hold : c.name ∈ seen
      · simp only [chain, if_pos hold]
        exact ⟨[], .repeated hold⟩
      cases hparent : c.parent with
      | none =>
        have hend : ∀ n seen (w : Walk), chain follow n seen none w = ([], w) := by
          intro n seen w
          cases n <;> rfl
        simp only [chain, if_neg hold, hparent, hend]
        exact ⟨[], .root hold hparent⟩
      | some parent =>
        rw [chain_child hold hparent]
        obtain ⟨log, up⟩ := obeys parent (mem_references_of_parent hc.mem hparent) w hw hk
        obtain ⟨hnext, hwithin⟩ := up.within hw.within
        obtain ⟨log', rest⟩ := ih (List.nodup_cons.2 ⟨hold, hseen⟩)
          (List.cons_subset.2 ⟨List.mem_map_of_mem hc.mem, hnames⟩)
          (by rw [List.length_cons]; omega) hnext (hw.once up.once hwithin)
          (by rw [up.once.pending, hk])
        exact ⟨log ++ log', .child hold hparent up rest⟩

theorem exists_lists_with {m : Catalog} {R : List String} {k : Nat} {follow : Follow}
    (obeys : m.Obeys R k follow) (name : String) {w : Walk} (hw : m.Sound R w)
    (hk : w.pending.length = k) :
    ∃ log, Lists m [] (m.class? name) w log (m.lineageWith follow name w).1
      (m.lineageWith follow name w).2 :=
  exists_lists_chain obeys List.nodup_nil (List.nil_subset _) (Nat.le_refl _)
    (fun _ hc => has_of_class? hc) hw hk

theorem exists_aliases_with {m : Catalog} {R : List String} {k : Nat} {follow : Follow}
    (obeys : m.Obeys R k follow) (owner name : String) {w : Walk} (hw : m.Sound R w)
    (hk : w.pending.length = k) :
    ∃ log, Aliases m owner name w log (m.aliasWith follow owner name w).1
      (m.aliasWith follow owner name w).2 := by
  obtain ⟨log, lists⟩ := exists_lists_with obeys owner hw hk
  obtain ⟨hline, hwithin⟩ := lists.within (fun _ hc => has_of_class? hc) hw.within
  unfold aliasWith
  cases htarget : (firstNamed (m.lineageWith follow owner w).1 name).bind Member.target? with
  | none =>
    simp only [htarget]
    exact ⟨_, .nothing lists htarget⟩
  | some target =>
    simp only [htarget]
    have hmem := mem_references_of_target (fun c hc => (hline c hc).mem) htarget
    obtain ⟨log', follows⟩ := obeys target hmem _ (hw.once lists.once hwithin)
      (by rw [lists.once.pending, hk])
    exact ⟨_, .target lists htarget follows⟩

/-- **Following a reference ends by the rules.** Induction on the references that may still be
entered: those in `R` that are not pending. When none is left, the reference is pending itself. -/
theorem exists_follows {m : Catalog} {R : List String} (hR : m.references ⊆ R) {n : Nat}
    {r : String} {w : Walk} (hr : r ∈ R) (hw : m.Sound R w)
    (hn : R.length ≤ n + w.pending.length) :
    ∃ log, Follows m r w log (m.follow n r w).1 (m.follow n r w).2 := by
  induction n generalizing r w with
  | zero =>
    have hmet := hw.mem_pending (by omega) hr
    obtain ⟨-, hdotted, hunknown⟩ := hw.pending r hmet
    obtain ⟨parts, hparts⟩ := Option.isSome_iff_exists.1 hdotted
    exact ⟨_, .pending hparts hunknown hmet⟩
  | succ n ih =>
    cases hdotted : splitAlias? r with
    | none =>
      simp only [follow, hdotted]
      exact ⟨_, .name hdotted⟩
    | some parts =>
      obtain ⟨owner, name⟩ := parts
      cases hknown : w.settled? r with
      | some found =>
        simp only [follow, hdotted, hknown]
        exact ⟨_, .settled hdotted hknown⟩
      | none =>
        by_cases hmet : r ∈ w.pending
        · simp only [follow, hdotted, hknown, if_pos hmet]
          exact ⟨_, .pending hdotted hknown hmet⟩
        · have hlength : (w.enter r).pending.length = w.pending.length + 1 := List.length_cons
          have obeys : m.Obeys R (w.pending.length + 1) (m.follow n) :=
            fun r' hr' w' hw' hk => ih (hR hr') hw' (by omega)
          obtain ⟨log, inner⟩ := exists_aliases_with obeys owner name
            (hw.enter hr (by rw [hdotted]; rfl) hknown hmet) hlength
          rw [follow_of_new m hdotted hknown hmet]
          exact ⟨_, .searched hdotted hknown hmet inner⟩

theorem obeys_followReference (m : Catalog) : m.Obeys m.references 0 m.followReference :=
  fun _ hr _ hw _ => exists_follows (List.Subset.refl _) hr hw (by omega)

theorem exists_lists (m : Catalog) (name : String) :
    ∃ log w, Lists m [] (m.class? name) {} log (m.lineage name) w := by
  obtain ⟨log, lists⟩ := exists_lists_with m.obeys_followReference name (sound_empty m _) rfl
  exact ⟨log, _, lists⟩

theorem exists_aliases (m : Catalog) (owner name : String) :
    ∃ log w, Aliases m owner name {} log (m.resolveAlias? owner name) w := by
  obtain ⟨log, aliases⟩ := exists_aliases_with m.obeys_followReference owner name
    (sound_empty m _) rfl
  rw [resolveAlias?_eq]
  exact ⟨log, _, aliases⟩

/-- **Every lookup ends,** whatever parents and aliases refer to: a lineage, a member and an operator
are looked up by one run of the rules, an alias by another. There is exactly one such run, it
searches for no reference twice, and it ends with what the catalog answers. A lineage begins with
the class that was asked for, if there is one, and has classes of the catalog only, each name
once. -/
theorem lookups_end (m : Catalog) (class_ : String) :
    (∃ log line w, Lists m [] (m.class? class_) {} log line w ∧
      (∀ log' line' w', Lists m [] (m.class? class_) {} log' line' w' →
        log' = log ∧ line' = line ∧ w' = w) ∧
      (searches log).Nodup ∧ m.lineage class_ = line ∧
      (∀ name, m.member? class_ name = firstNamed line name) ∧
      (∀ op, m.hasOperator class_ op = line.any fun c => c.members.contains (.operator op)) ∧
      line.head? = m.class? class_ ∧ (∀ c ∈ line, c ∈ m.classes) ∧ (line.map (·.name)).Nodup) ∧
    ∀ name, ∃ log found w, Aliases m class_ name {} log found w ∧
      (∀ log' found' w', Aliases m class_ name {} log' found' w' →
        log' = log ∧ found' = found ∧ w' = w) ∧
      (searches log).Nodup ∧ m.resolveAlias? class_ name = found := by
  constructor
  · obtain ⟨log, w, lists⟩ := m.exists_lists class_
    obtain ⟨hline, -⟩ := lists.within (fun _ hc => has_of_class? hc) nofun
    exact ⟨log, _, w, lists, fun _ _ _ h => h.unique lists, lists.once.nodup, rfl, fun _ => rfl,
      fun _ => rfl, lists.head?, fun c hc => (hline c hc).mem, lists.names.1⟩
  · intro name
    obtain ⟨log, w, aliases⟩ := m.exists_aliases class_ name
    exact ⟨log, _, w, aliases, fun _ _ _ h => h.unique aliases, aliases.once.nodup, rfl⟩

end Catalog
end Bindery
