/-
# What references mean

The plain meaning of parents and aliases has no walk. It does not remember where a reference led,
and it guards against no circle:

| what | means |
| --- | --- |
| a reference without a dot (`StandsFor`) | the class of that name |
| `Owner.alias` | what that alias of `Owner` means |
| an alias of a class (`AliasFor`) | what the target of the first member of that name means |
| a lineage (`Descends`) | the class, then the lineage of what its parent means |

A catalog is acyclic if classes and dotted references can be ranked such that whatever is needed for
a class or a reference ranks below it (`Ranked`). Then a lookup computes the plain meaning
(`lookups_plain`): no reference is met while it is followed, no name repeats, and what a walk
remembers is what a fresh walk would find.
-/

import Bindery.Proofs.Catalog.Walks

namespace Bindery
namespace Catalog

mutual

/-- The class that a reference means, if it means one. -/
inductive StandsFor (m : Catalog) : String → Option ClassEntry → Prop
  | name {r : String} (plain : splitAlias? r = none) : StandsFor m r (m.class? r)
  | dotted {r owner name : String} {found : Option ClassEntry}
    (dotted : splitAlias? r = some (owner, name)) (inner : AliasFor m owner name found) :
    StandsFor m r found

/-- The lineage from a class on. -/
inductive Descends (m : Catalog) : Option ClassEntry → List ClassEntry → Prop
  | nobody : Descends m none []
  | root {c : ClassEntry} (last : c.parent = none) : Descends m (some c) [c]
  | child {c : ClassEntry} {parent : String} {next : Option ClassEntry} {line : List ClassEntry}
    (refers : c.parent = some parent) (up : StandsFor m parent next)
    (rest : Descends m next line) : Descends m (some c) (c :: line)

/-- The class that an alias of a class means, if it means one. -/
inductive AliasFor (m : Catalog) : String → String → Option ClassEntry → Prop
  | nothing {owner name : String} {line : List ClassEntry} (lists : Descends m (m.class? owner) line)
    (empty : (firstNamed line name).bind Member.target? = none) : AliasFor m owner name none
  | target {owner name target : String} {line : List ClassEntry} {found : Option ClassEntry}
    (lists : Descends m (m.class? owner) line)
    (refers : (firstNamed line name).bind Member.target? = some target)
    (follows : StandsFor m target found) : AliasFor m owner name found

end

/-! ### A meaning is unique -/

mutual

theorem StandsFor.unique {m : Catalog} {r : String} {found found' : Option ClassEntry} :
    StandsFor m r found → StandsFor m r found' → found = found'
  | .name plain, h => by
    cases h with
    | name => rfl
    | dotted dotted =>
      rw [plain] at dotted
      exact absurd dotted nofun
  | .dotted dotted inner, h => by
    cases h with
    | name plain =>
      rw [plain] at dotted
      exact absurd dotted nofun
    | dotted dotted' inner' =>
      obtain ⟨rfl, rfl⟩ := Prod.mk.inj (Option.some.inj (dotted.symm.trans dotted'))
      exact inner.unique inner'

theorem Descends.unique {m : Catalog} {current : Option ClassEntry} {line line' : List ClassEntry} :
    Descends m current line → Descends m current line' → line = line'
  | .nobody, h => by
    cases h
    rfl
  | .root last, h => by
    cases h with
    | root => rfl
    | child refers =>
      rw [last] at refers
      exact absurd refers nofun
  | .child refers up rest, h => by
    cases h with
    | root last =>
      rw [last] at refers
      exact absurd refers nofun
    | child refers' up' rest' =>
      obtain rfl := Option.some.inj (refers.symm.trans refers')
      obtain rfl := up.unique up'
      rw [rest.unique rest']

theorem AliasFor.unique {m : Catalog} {owner name : String} {found found' : Option ClassEntry} :
    AliasFor m owner name found → AliasFor m owner name found' → found = found'
  | .nothing lists empty, h => by
    cases h with
    | nothing => rfl
    | target lists' refers =>
      obtain rfl := lists.unique lists'
      rw [empty] at refers
      exact absurd refers nofun
  | .target lists refers follows, h => by
    cases h with
    | nothing lists' empty =>
      obtain rfl := lists.unique lists'
      rw [empty] at refers
      exact absurd refers nofun
    | target lists' refers' follows' =>
      obtain rfl := lists.unique lists'
      obtain rfl := Option.some.inj (refers.symm.trans refers')
      exact follows.unique follows'

end

mutual

/-- A reference means classes of the catalog. -/
theorem StandsFor.has {m : Catalog} {r : String} {found : Option ClassEntry} :
    StandsFor m r found → ∀ c ∈ found, m.Has c
  | .name _ => fun _ hc => has_of_class? hc
  | .dotted _ inner => inner.has

theorem AliasFor.has {m : Catalog} {owner name : String} {found : Option ClassEntry} :
    AliasFor m owner name found → ∀ c ∈ found, m.Has c
  | .nothing _ _ => nofun
  | .target _ _ follows => follows.has

end

/-! ### Acyclic catalogs -/

/-- Classes and dotted references are ranked: whatever is needed for the lineage of a class or for a
reference ranks below it. -/
structure Ranked (m : Catalog) (classRank : ClassEntry → Nat) (rank : String → Nat) : Prop where
  parent : ∀ c r, m.Has c → c.parent = some r → (splitAlias? r).isSome → rank r < classRank c
  ancestor : ∀ c r d, m.Has c → c.parent = some r → m.StandsFor r (some d) →
    classRank d < classRank c
  owner : ∀ r owner name c, splitAlias? r = some (owner, name) → m.class? owner = some c →
    classRank c < rank r
  target : ∀ r owner name line target, splitAlias? r = some (owner, name) →
    m.Descends (m.class? owner) line → (firstNamed line name).bind Member.target? = some target →
    (splitAlias? target).isSome → rank target < rank r

/-- No class and no reference needs itself. -/
def Acyclic (m : Catalog) : Prop := ∃ classRank rank, m.Ranked classRank rank

/-! ### A walk remembers meanings -/

/-- What is settled is what it means. -/
def Right (m : Catalog) (w : Walk) : Prop :=
  ∀ r found, w.settled? r = some found → m.StandsFor r found

theorem Right.settle {m : Catalog} {w : Walk} {r : String} {found : Option ClassEntry}
    (h : m.Right w) (hfound : m.StandsFor r found) : m.Right (w.settle r found) := by
  intro other found' hother
  rw [settled?_settle] at hother
  split at hother
  · rename_i heq
    rw [← heq, ← Option.some.inj hother]
    exact hfound
  · exact h other found' hother

/-- What happens in a lookup is what the plain meaning says. -/
def Plain (m : Catalog) : Event → Prop
  | .search _ => True
  | .found r found => m.StandsFor r found
  | .cut _ => False
  | .listed owner line => m.Descends (m.class? owner) line

mutual

theorem Follows.plain {m : Catalog} {classRank : ClassEntry → Nat} {rank : String → Nat}
    (ranked : m.Ranked classRank rank) {r : String} {w w' : Walk} {log : List Event}
    {found : Option ClassEntry} :
    Follows m r w log found w' → m.Right w →
      (∀ x ∈ w.pending, (splitAlias? r).isSome → rank r < rank x) →
      m.StandsFor r found ∧ m.Right w' ∧ ∀ e ∈ log, m.Plain e
  | .name plain, hw, _ => ⟨.name plain, hw, by simpa [Plain] using .name plain⟩
  | .settled _ known, hw, _ => ⟨hw _ _ known, hw, by simpa [Plain] using hw _ _ known⟩
  | .pending dotted _ met, _, above =>
    -- a pending reference ranks above the one that is followed, so it is another one
    absurd (above r met (by simp [dotted])) (Nat.lt_irrefl _)
  | .searched dotted _ _ inner, hw, above => by
    have hbelow : ∀ x ∈ r :: w.pending, rank r ≤ rank x :=
      List.forall_mem_cons.2 ⟨Nat.le_refl _, fun x hx => Nat.le_of_lt (above x hx (by simp [dotted]))⟩
    obtain ⟨hfound, hw', hlog⟩ := inner.plain ranked (w := w.enter r) hw
      (fun x hx c hc => Nat.lt_of_lt_of_le (ranked.owner r _ _ c dotted hc) (hbelow x hx))
      (fun x hx line target hline htarget hdot =>
        Nat.lt_of_lt_of_le (ranked.target r _ _ line target dotted hline htarget hdot)
          (hbelow x hx))
    have hstands : m.StandsFor r found := .dotted dotted hfound
    refine ⟨hstands, hw'.settle hstands, List.forall_mem_cons.2 ⟨trivial, ?_⟩⟩
    exact List.forall_mem_append.2 ⟨hlog, by simpa [Plain] using hstands⟩

theorem Lists.plain {m : Catalog} {classRank : ClassEntry → Nat} {rank : String → Nat}
    (ranked : m.Ranked classRank rank) {seen : List String} {current : Option ClassEntry}
    {w w' : Walk} {log : List Event} {line : List ClassEntry} :
    Lists m seen current w log line w' → m.Right w → (∀ c ∈ current, m.Has c) →
      (∀ x ∈ w.pending, ∀ c ∈ current, classRank c < rank x) →
      (∀ c ∈ current, ∀ d, m.Has d → d.name ∈ seen → classRank c < classRank d) →
      m.Descends current line ∧ m.Right w' ∧ ∀ e ∈ log, m.Plain e
  | .nobody, hw, _, _, _ => ⟨.nobody, hw, nofun⟩
  | .repeated old, _, hcurrent, _, hseen =>
    -- the class that was seen under this name is this class, and ranks above it
    absurd (hseen _ rfl _ (hcurrent _ rfl) old) (Nat.lt_irrefl _)
  | .root _ last, hw, _, _, _ => ⟨.root last, hw, nofun⟩
  | @Lists.child _ _ c _ _ _ parent _ _ next _ _ refers up rest, hw, hcurrent, above, hseen => by
    have hc := hcurrent c rfl
    obtain ⟨hnext, hw₁, hlog⟩ := up.plain ranked hw fun x hx hdot =>
      Nat.lt_trans (ranked.parent c parent hc refers hdot) (above x hx c rfl)
    have hlower : ∀ d ∈ next, classRank d < classRank c := fun d hd =>
      ranked.ancestor c parent d hc refers (hd ▸ hnext)
    obtain ⟨hline, hw₂, hlog'⟩ := rest.plain ranked hw₁ hnext.has
      (fun x hx d hd => by
        rw [up.once.pending] at hx
        exact Nat.lt_trans (hlower d hd) (above x hx c rfl))
      (fun d hd e he hmem => by
        rcases List.mem_cons.1 hmem with hname | hmem
        · have heq : c = e := Option.some.inj (hc.symm.trans (hname ▸ he))
          exact heq ▸ hlower d hd
        · exact Nat.lt_trans (hlower d hd) (hseen c rfl e he hmem))
    exact ⟨.child refers hnext hline, hw₂, List.forall_mem_append.2 ⟨hlog, hlog'⟩⟩

theorem Aliases.plain {m : Catalog} {classRank : ClassEntry → Nat} {rank : String → Nat}
    (ranked : m.Ranked classRank rank) {owner name : String} {w w' : Walk} {log : List Event}
    {found : Option ClassEntry} :
    Aliases m owner name w log found w' → m.Right w →
      (∀ x ∈ w.pending, ∀ c ∈ m.class? owner, classRank c < rank x) →
      (∀ x ∈ w.pending, ∀ line target, m.Descends (m.class? owner) line →
        (firstNamed line name).bind Member.target? = some target → (splitAlias? target).isSome →
        rank target < rank x) →
      m.AliasFor owner name found ∧ m.Right w' ∧ ∀ e ∈ log, m.Plain e
  | .nothing lists empty, hw, above, _ => by
    obtain ⟨hline, hw₁, hlog⟩ := lists.plain ranked hw (fun _ hc => has_of_class? hc) above
      fun _ _ _ _ hmem => absurd hmem List.not_mem_nil
    refine ⟨.nothing hline empty, hw₁, List.forall_mem_append.2 ⟨hlog, ?_⟩⟩
    simpa [Plain] using hline
  | .target lists refers follows, hw, above, below => by
    obtain ⟨hline, hw₁, hlog⟩ := lists.plain ranked hw (fun _ hc => has_of_class? hc) above
      fun _ _ _ _ hmem => absurd hmem List.not_mem_nil
    obtain ⟨hfound, hw₂, hlog'⟩ := follows.plain ranked hw₁ fun x hx hdot => by
      rw [lists.once.pending] at hx
      exact below x hx _ _ hline refers hdot
    refine ⟨.target hline refers hfound, hw₂, List.forall_mem_append.2 ⟨hlog, ?_⟩⟩
    exact List.forall_mem_cons.2 ⟨hline, hlog'⟩

end

/-! ### Lookups -/

/-- The class that a reference leads to in a lookup of its own. -/
def resolve (m : Catalog) (r : String) : Option ClassEntry := (m.followReference r {}).1

theorem exists_resolve (m : Catalog) (r : String) :
    ∃ log w, Follows m r {} log (m.resolve r) w := by
  obtain ⟨log, follows⟩ := exists_follows (List.subset_cons_self r m.references)
    (List.mem_cons_self ..) (m.sound_empty (r :: m.references)) (Nat.le_refl _)
  exact ⟨log, _, follows⟩

/-- What happens in a lookup is what lookups of their own give. -/
def Agrees (m : Catalog) : Event → Prop
  | .search _ => True
  | .found r found => found = m.resolve r
  | .cut _ => False
  | .listed owner line => line = m.lineage owner

section Acyclic

variable {m : Catalog} (acyclic : m.Acyclic)
include acyclic

theorem follows_plain {r : String} {log : List Event} {found : Option ClassEntry} {w : Walk}
    (h : Follows m r {} log found w) : m.StandsFor r found ∧ ∀ e ∈ log, m.Plain e := by
  obtain ⟨classRank, rank, ranked⟩ := acyclic
  obtain ⟨hfound, -, hlog⟩ := h.plain ranked nofun nofun
  exact ⟨hfound, hlog⟩

theorem lists_plain {name : String} {log : List Event} {line : List ClassEntry} {w : Walk}
    (h : Lists m [] (m.class? name) {} log line w) :
    m.Descends (m.class? name) line ∧ ∀ e ∈ log, m.Plain e := by
  obtain ⟨classRank, rank, ranked⟩ := acyclic
  obtain ⟨hline, -, hlog⟩ := h.plain ranked nofun (fun _ hc => has_of_class? hc) nofun
    fun _ _ _ _ hmem => absurd hmem List.not_mem_nil
  exact ⟨hline, hlog⟩

theorem aliases_plain {owner name : String} {log : List Event} {found : Option ClassEntry}
    {w : Walk} (h : Aliases m owner name {} log found w) :
    m.AliasFor owner name found ∧ ∀ e ∈ log, m.Plain e := by
  obtain ⟨classRank, rank, ranked⟩ := acyclic
  obtain ⟨hfound, -, hlog⟩ := h.plain ranked nofun nofun nofun
  exact ⟨hfound, hlog⟩

theorem standsFor_resolve (r : String) : m.StandsFor r (m.resolve r) := by
  obtain ⟨log, w, h⟩ := m.exists_resolve r
  exact (follows_plain acyclic h).1

theorem descends_lineage (name : String) : m.Descends (m.class? name) (m.lineage name) := by
  obtain ⟨log, w, h⟩ := m.exists_lists name
  exact (lists_plain acyclic h).1

theorem aliasFor_resolveAlias? (owner name : String) :
    m.AliasFor owner name (m.resolveAlias? owner name) := by
  obtain ⟨log, w, h⟩ := m.exists_aliases owner name
  exact (aliases_plain acyclic h).1

/-- A meaning is what a lookup of its own gives. -/
theorem agrees_of_plain {e : Event} (h : m.Plain e) : m.Agrees e := by
  cases e with
  | search => trivial
  | found r found => exact h.unique (standsFor_resolve acyclic r)
  | cut => exact h
  | listed owner line => exact h.unique (descends_lineage acyclic owner)

theorem lineage_eq (name : String) :
    m.lineage name = match m.class? name with
      | none => []
      | some c => c :: match c.parent.bind m.resolve with
        | none => []
        | some d => m.lineage d.name := by
  refine (descends_lineage acyclic name).unique ?_
  cases m.class? name with
  | none => exact .nobody
  | some c =>
    cases hparent : c.parent with
    | none =>
      simp only [hparent, Option.bind_none]
      exact .root hparent
    | some parent =>
      have hup := standsFor_resolve acyclic parent
      refine .child hparent hup ?_
      simp only [hparent, Option.bind_some]
      cases hnext : m.resolve parent with
      | none => exact .nobody
      | some d =>
        have hd : m.class? d.name = some d := hup.has d hnext
        have hline := descends_lineage acyclic d.name
        rwa [hd] at hline

theorem resolve_name {r : String} (plain : splitAlias? r = none) : m.resolve r = m.class? r :=
  (standsFor_resolve acyclic r).unique (.name plain)

theorem resolve_dotted {r owner name : String} (dotted : splitAlias? r = some (owner, name)) :
    m.resolve r = m.resolveAlias? owner name :=
  (standsFor_resolve acyclic r).unique (.dotted dotted (aliasFor_resolveAlias? acyclic owner name))

theorem resolveAlias?_eq_bind (owner name : String) :
    m.resolveAlias? owner name = ((m.member? owner name).bind Member.target?).bind m.resolve := by
  have hline := descends_lineage acyclic owner
  refine (aliasFor_resolveAlias? acyclic owner name).unique ?_
  cases htarget : (m.member? owner name).bind Member.target? with
  | none => exact .nothing hline htarget
  | some target => exact .target hline htarget (standsFor_resolve acyclic target)

end Acyclic

/-- **Lookups compute the plain meaning.** In an acyclic catalog a lineage is the class and the
lineage of what its parent leads to, and a member is the first of its name along the lineage. A
reference without a dot leads to the class of that name, `Owner.alias` to where the alias of `Owner`
leads, and an alias to where the target of the member of that name does, if the member is an alias.
Within every lookup, whatever its walk holds when a reference or a lineage is needed, the answer is
what a lookup of its own would give. -/
theorem lookups_plain {m : Catalog} (acyclic : m.Acyclic) :
    (∀ name, m.lineage name = match m.class? name with
      | none => []
      | some c => c :: match c.parent.bind m.resolve with
        | none => []
        | some d => m.lineage d.name) ∧
    (∀ class_ name, m.member? class_ name = firstNamed (m.lineage class_) name) ∧
    (∀ r, splitAlias? r = none → m.resolve r = m.class? r) ∧
    (∀ r owner name, splitAlias? r = some (owner, name) →
      m.resolve r = m.resolveAlias? owner name) ∧
    (∀ owner name, m.resolveAlias? owner name =
      ((m.member? owner name).bind Member.target?).bind m.resolve) ∧
    (∀ name, ∃ log w, Lists m [] (m.class? name) {} log (m.lineage name) w ∧
      ∀ e ∈ log, m.Agrees e) ∧
    (∀ owner name, ∃ log w, Aliases m owner name {} log (m.resolveAlias? owner name) w ∧
      ∀ e ∈ log, m.Agrees e) ∧
    ∀ r, ∃ log w, Follows m r {} log (m.resolve r) w ∧ ∀ e ∈ log, m.Agrees e := by
  refine ⟨lineage_eq acyclic, fun _ _ => rfl, fun _ => resolve_name acyclic,
    fun _ _ _ => resolve_dotted acyclic, resolveAlias?_eq_bind acyclic, fun name => ?_,
    fun owner name => ?_, fun r => ?_⟩
  · obtain ⟨log, w, h⟩ := m.exists_lists name
    exact ⟨log, w, h, fun e he => agrees_of_plain acyclic ((lists_plain acyclic h).2 e he)⟩
  · obtain ⟨log, w, h⟩ := m.exists_aliases owner name
    exact ⟨log, w, h, fun e he => agrees_of_plain acyclic ((aliases_plain acyclic h).2 e he)⟩
  · obtain ⟨log, w, h⟩ := m.exists_resolve r
    exact ⟨log, w, h, fun e he => agrees_of_plain acyclic ((follows_plain acyclic h).2 e he)⟩

namespace Relayed

/-- A class with a method. -/
def adaptor : ClassEntry := ⟨"adaptor", none, false, none, none, [.method "next" none]⟩

/-- Its `type` is the class `adaptor`. -/
def base : ClassEntry := ⟨"base", none, false, none, none, [.alias "type" "adaptor"]⟩

/-- Its `type` is what the `type` of `base` is. -/
def relay : ClassEntry := ⟨"relay", none, false, none, none, [.alias "type" "base.type"]⟩

/-- It inherits from the `type` of `relay`. -/
def counting : ClassEntry := ⟨"counting", none, false, some "relay.type", none, []⟩

/-- A parent that is an alias of an alias. -/
def catalog : Catalog := ⟨[], [], [adaptor, base, relay, counting], [], []⟩

/-- A class ranks above those that its parent and its aliases refer to. -/
def classRank (c : ClassEntry) : Nat :=
  if c = counting then 5 else if c = relay then 3 else if c = base then 1 else 0

/-- A reference ranks above its owner. -/
def ownerRank (owner : String) : Nat :=
  if owner = "counting" then 6 else if owner = "base" then 2 else 4

/-- The rank of a dotted reference. -/
def rank (r : String) : Nat := (splitAlias? r).elim 0 fun parts => ownerRank parts.1

theorem class_cases {owner : String} {c : ClassEntry} (h : catalog.class? owner = some c) :
    (owner = "adaptor" ∧ c = adaptor) ∨ (owner = "base" ∧ c = base) ∨
      (owner = "relay" ∧ c = relay) ∨ (owner = "counting" ∧ c = counting) := by
  have hname : c.name = owner := by simpa using List.find?_some h
  have hmem := (has_of_class? h).mem
  simp only [catalog, List.mem_cons, List.not_mem_nil, or_false] at hmem
  rcases hmem with rfl | rfl | rfl | rfl <;> subst hname <;> simp [adaptor, base, relay, counting]

theorem standsFor_base : catalog.StandsFor "base.type" (some adaptor) := by
  have dotted : splitAlias? "base.type" = some ("base", "type") := by decide +kernel
  have refers : (firstNamed [base] "type").bind Member.target? = some "adaptor" := rfl
  exact .dotted dotted (.target (.root rfl) refers (.name (by decide +kernel)))

theorem standsFor_relay : catalog.StandsFor "relay.type" (some adaptor) := by
  have dotted : splitAlias? "relay.type" = some ("relay", "type") := by decide +kernel
  have refers : (firstNamed [relay] "type").bind Member.target? = some "base.type" := rfl
  exact .dotted dotted (.target (.root rfl) refers standsFor_base)

theorem descends_counting : catalog.Descends (some counting) [counting, adaptor] :=
  .child rfl standsFor_relay (.root rfl)

/-- The only dotted target is that of the `type` of `relay`. -/
theorem eq_of_target {owner name target : String} {line : List ClassEntry}
    (lists : catalog.Descends (catalog.class? owner) line)
    (refers : (firstNamed line name).bind Member.target? = some target)
    (dotted : (splitAlias? target).isSome) : owner = "relay" ∧ target = "base.type" := by
  cases hc : catalog.class? owner with
  | none =>
    rw [hc] at lists
    cases lists
    exact absurd refers nofun
  | some c =>
    rw [hc] at lists
    obtain ⟨d, hd, halias⟩ := exists_alias_of_target refers
    rcases class_cases hc with ⟨-, rfl⟩ | ⟨-, rfl⟩ | ⟨rfl, rfl⟩ | ⟨-, rfl⟩
    · obtain rfl := lists.unique (.root rfl)
      obtain rfl := List.mem_singleton.1 hd
      simp [adaptor] at halias
    · obtain rfl := lists.unique (.root rfl)
      obtain rfl := List.mem_singleton.1 hd
      obtain ⟨-, rfl⟩ : name = "type" ∧ target = "adaptor" := by simpa [base] using halias
      exact absurd dotted (by decide +kernel)
    · obtain rfl := lists.unique (.root rfl)
      obtain rfl := List.mem_singleton.1 hd
      obtain ⟨-, rfl⟩ : name = "type" ∧ target = "base.type" := by simpa [relay] using halias
      exact ⟨rfl, rfl⟩
    · obtain rfl := lists.unique descends_counting
      rcases List.mem_pair.1 hd with rfl | rfl <;> simp [counting, adaptor] at halias

theorem eq_of_parent {c : ClassEntry} {r : String} (hc : catalog.Has c) (hr : c.parent = some r) :
    c = counting ∧ r = "relay.type" := by
  rcases class_cases hc with ⟨-, rfl⟩ | ⟨-, rfl⟩ | ⟨-, rfl⟩ | ⟨-, rfl⟩ <;>
    simp [adaptor, base, relay, counting] at hr
  exact ⟨rfl, hr.symm⟩

theorem ranked : catalog.Ranked classRank rank := by
  constructor
  · intro c r hc hr _
    obtain ⟨rfl, rfl⟩ := eq_of_parent hc hr
    decide +kernel
  · intro c r d hc hr hd
    obtain ⟨rfl, rfl⟩ := eq_of_parent hc hr
    obtain rfl := Option.some.inj (hd.unique standsFor_relay)
    decide +kernel
  · intro r owner name c hr hc
    simp only [rank, hr, Option.elim_some]
    rcases class_cases hc with ⟨rfl, rfl⟩ | ⟨rfl, rfl⟩ | ⟨rfl, rfl⟩ | ⟨rfl, rfl⟩ <;> decide +kernel
  · intro r owner name line target hr lists refers dotted
    obtain ⟨rfl, rfl⟩ := eq_of_target lists refers dotted
    simp only [rank, hr, Option.elim_some]
    decide +kernel

end Relayed

open Relayed in
/-- The hypothesis of `lookups_plain` is satisfiable: where a parent is an alias of an alias, the
lineage goes on with the class that both stand for. -/
theorem lookups_plain_relayed :
    catalog.Acyclic ∧ catalog.resolve "base.type" = some adaptor ∧
      catalog.resolve "relay.type" = catalog.resolve "base.type" ∧
      catalog.lineage "counting" = counting :: catalog.lineage "adaptor" ∧
      catalog.member? "counting" "next" = some (.method "next" none) := by
  have acyclic : catalog.Acyclic := ⟨classRank, rank, ranked⟩
  obtain ⟨hlineage, hmember, hname, hdotted, halias, -⟩ := lookups_plain acyclic
  have hbase : catalog.resolve "base.type" = some adaptor := by
    rw [hdotted "base.type" "base" "type" (by decide +kernel), halias]
    exact (hname "adaptor" (by decide +kernel)).trans (by decide +kernel)
  have hrelay : catalog.resolve "relay.type" = catalog.resolve "base.type" := by
    rw [hdotted "relay.type" "relay" "type" (by decide +kernel), halias]
    rfl
  have hline : catalog.lineage "counting" = counting :: catalog.lineage "adaptor" := by
    rw [hlineage]
    simp only [show catalog.class? "counting" = some counting by decide +kernel]
    have hparent : counting.parent.bind catalog.resolve = some adaptor := hrelay.trans hbase
    simp only [hparent]
    rfl
  refine ⟨acyclic, hbase, hrelay, hline, ?_⟩
  rw [hmember, hline]
  decide +kernel

end Catalog
end Bindery
