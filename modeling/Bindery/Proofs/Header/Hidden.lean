/-
# A class body without its hidden members

Take the declarations out of a class body that stand where nothing is public, and leave the access
labels. What is left, read again, has the same entries without the hidden declarations
(`bodyItems_publicBody`): every declaration and every comment in front of it is found where it was.

A statement ends by itself, with one exception: behind the body of a function it matters what
follows, a semicolon or a handler. But what follows a public declaration is public, or a label, so
it is not taken out (`firstStatement_spec`, `head?_keptTrees`).
-/

import Bindery.Header.Members

namespace Bindery
namespace Header

/-! ### The first statement -/

/-- Whether a token ends the statement under way. -/
def endsStatement (before : List Tree) (t : Token) : Bool :=
  t.isMark ";" || t.isMark ":" && isLabel before

/-- Whether a group ends the statement under way, by what follows it. -/
def endsBody (before : List Tree) (l : Token) (inner : List Tree) (r : Token)
    (next : Option Tree) : Bool :=
  l.isMark "\x7b" &&
    (match Brace.behind before (.group l inner r) with
      | .body => true
      | _ => false) &&
    !(inner.isEmpty && next.any (·.isMark ";") || next.any (·.isWord "catch"))

/-- The first statement of a list without blocks, and what stands behind it. -/
def firstStatement (before : List Tree) : List Tree → Option (List Tree × List Tree)
  | [] => if before.isEmpty then none else some (before, [])
  | .leaf t :: rest =>
    if t.kind = .directive then
      if before.isEmpty then some ([.leaf t], rest) else firstStatement before rest
    else if endsStatement before t then some (before ++ [.leaf t], rest)
    else firstStatement (before ++ [.leaf t]) rest
  | .group l inner r :: rest =>
    if endsBody before l inner r rest.head? then some (before ++ [.group l inner r], rest)
    else firstStatement (before ++ [.group l inner r]) rest

/-- A list in which no namespace and no linkage block is opened, such as the body of a class. -/
def Flat (trees : List Tree) : Prop :=
  ∀ t ∈ trees, t.isWord "namespace" = false ∧ t.isWord "extern" = false

instance (trees : List Tree) : Decidable (Flat trees) :=
  inferInstanceAs
    (Decidable (∀ t ∈ trees, t.isWord "namespace" = false ∧ t.isWord "extern" = false))

theorem namespaceName?_of_flat {before : List Tree} (h : Flat before) :
    namespaceName? before = none := by
  unfold namespaceName?
  dsimp only
  split
  case h_2 => rfl
  case h_1 t rest heq =>
    have ht : t ∈ before := List.mem_of_mem_drop (heq ▸ List.mem_cons_self ..)
    rw [(h t ht).1]
    rfl

/-- Without blocks, a brace is a part of the statement under way or the body that ends it. -/
theorem behind_of_flat {before : List Tree} (h : Flat before) (brace : Tree) :
    Brace.behind before brace = .body ∨ Brace.behind before brace = .part := by
  have hextern : before.head?.any (·.isWord "extern") = false := by
    cases before with
    | nil => rfl
    | cons t r => exact (h t (List.mem_cons_self ..)).2
  unfold Brace.behind
  rw [namespaceName?_of_flat h, hextern]
  dsimp only
  split
  · simp_all
  · split
    · exact .inr rfl
    · split
      · split
        · exact .inr rfl
        · split
          · exact .inr rfl
          · exact .inl rfl
      · exact .inr rfl

theorem statements_group {before : List Tree} (h : Flat before) (l : Token) (inner : List Tree)
    (r : Token) (rest : List Tree) :
    statements none before (.group l inner r :: rest) =
      if endsBody before l inner r rest.head? then
        ⟨none, before ++ [.group l inner r]⟩ :: statements none [] rest
      else statements none (before ++ [.group l inner r]) rest := by
  rw [statements, endsBody]
  cases l.isMark "\x7b" with
  | false => rfl
  | true =>
    rcases behind_of_flat h (.group l inner r) with hbehind | hbehind
    · rw [hbehind]
      cases inner.isEmpty && rest.head?.any (·.isMark ";") ||
        rest.head?.any (·.isWord "catch") <;> rfl
    · rw [hbehind]
      rfl

/-- **Statements are cut off one by one.** Induction on the list, with the statement under way. -/
theorem statements_eq {trees before : List Tree} (h : Flat (before ++ trees)) :
    statements none before trees =
      match firstStatement before trees with
      | none => []
      | some (s, rest) => ⟨none, s⟩ :: statements none [] rest := by
  induction trees generalizing before with
  | nil =>
    by_cases hbefore : before.isEmpty = true <;> simp [statements, firstStatement, hbefore]
  | cons t rest ih =>
    have hnext : Flat ((before ++ [t]) ++ rest) := by
      rwa [List.append_assoc, List.singleton_append]
    cases t with
    | leaf t =>
      have hskip : Flat (before ++ rest) := fun u hu =>
        h u (List.mem_append.2 ((List.mem_append.1 hu).imp_right (List.mem_cons_of_mem _)))
      rw [statements, firstStatement, endsStatement]
      split
      · split
        · rfl
        · exact ih hskip
      · split
        · rfl
        · exact ih hnext
    | group l inner r =>
      have hbefore : Flat before := fun u hu => h u (List.mem_append_left _ hu)
      rw [statements_group hbefore, firstStatement]
      split
      · rfl
      · exact ih hnext

/-- What holds of the first statement of a list and what stands behind it. `own` is what the list
adds to the statement under way. -/
structure Cut (before trees s rest own : List Tree) : Prop where
  statement : s = before ++ own
  own_subset : own ⊆ trees
  rest_suffix : rest <:+ trees.tail
  /-- Only directives within a statement are left out. -/
  head : before = [] ∨ (∀ t ∈ trees.head?, t.isKind .directive = false) → own.head? = trees.head?
  /-- The statement is found again in front of anything that begins like what stood behind it. -/
  again : ∀ rest' : List Tree, rest'.head? = rest.head? →
    firstStatement before (own ++ rest') = some (s, rest')

/-- A tree that ends the statement under way ends it again. -/
theorem Cut.last {before rest : List Tree} {t : Tree}
    (h : ∀ rest' : List Tree, rest'.head? = rest.head? →
      firstStatement before (t :: rest') = some (before ++ [t], rest')) :
    Cut before (t :: rest) (before ++ [t]) rest [t] where
  statement := rfl
  own_subset := by simp
  rest_suffix := List.suffix_rfl
  head _ := rfl
  again := h

/-- A tree that the statement under way goes on behind is kept. -/
theorem Cut.cons {before more s rest own : List Tree} {t : Tree}
    (h : Cut (before ++ [t]) more s rest own)
    (hgoes : ∀ rest' : List Tree, rest'.head? = rest.head? →
      firstStatement before (t :: (own ++ rest')) = firstStatement (before ++ [t]) (own ++ rest')) :
    Cut before (t :: more) s rest (t :: own) where
  statement := by rw [h.statement, List.append_assoc, List.singleton_append]
  own_subset := List.cons_subset.2 ⟨List.mem_cons_self, List.subset_cons_of_subset t h.own_subset⟩
  rest_suffix := h.rest_suffix.trans (List.tail_suffix more)
  head _ := rfl
  again rest' hrest := by rw [List.cons_append, hgoes rest' hrest, h.again rest' hrest]

/-- A directive within a statement is left out. -/
theorem Cut.skip {before more s rest own : List Tree} {t : Tree} (h : Cut before more s rest own)
    (hbefore : before ≠ []) (hdirective : t.isKind .directive = true) :
    Cut before (t :: more) s rest own where
  statement := h.statement
  own_subset := List.subset_cons_of_subset t h.own_subset
  rest_suffix := h.rest_suffix.trans (List.tail_suffix more)
  head hhead := by
    rcases hhead with hnil | hkind
    · exact absurd hnil hbefore
    · exact absurd (hkind t rfl) (by simp [hdirective])
  again := h.again

/-- What follows what a statement has of its own, if the end of the statement stays where it is. -/
theorem Cut.head?_append {before trees s rest own : List Tree} (h : Cut before trees s rest own)
    (hhead : before = [] ∨ ∀ t ∈ trees.head?, t.isKind .directive = false) {rest' : List Tree}
    (hrest : rest'.head? = rest.head?) : (own ++ rest').head? = trees.head? := by
  have hown := h.head hhead
  cases own with
  | cons t own => exact hown
  | nil =>
    obtain rfl := List.head?_eq_none_iff.1 hown.symm
    rw [List.suffix_nil.1 h.rest_suffix] at hrest
    exact hrest

/-- A directive is no mark and no word. -/
theorem isMark_isWord_of_directive {t : Tree} (h : t.isKind .directive = true) (text : String) :
    t.isMark text = false ∧ t.isWord text = false := by
  cases t with
  | group l inner r => exact ⟨rfl, rfl⟩
  | leaf t =>
    obtain hkind : t.kind = .directive := by simpa [Tree.isKind] using h
    simp [Tree.isMark, Tree.isWord, Token.isMark, Token.isWord, hkind]

/-- A group that does not end a statement does not end it either where a directive behind it is
gone. -/
theorem not_endsBody {before : List Tree} {l r : Token} {inner : List Tree}
    {next next' : Option Tree} (h : ¬ endsBody before l inner r next = true)
    (hnext : (∀ t ∈ next, t.isKind .directive = false) → next' = next) :
    ¬ endsBody before l inner r next' = true := by
  cases next with
  | none => rwa [hnext nofun]
  | some t =>
    cases hkind : t.isKind .directive with
    | false =>
      rwa [hnext]
      rintro _ ⟨⟩
      exact hkind
    | true =>
      have hfree := isMark_isWord_of_directive hkind
      simp only [endsBody, Option.any_some, (hfree _).1, (hfree _).2, Bool.and_false, Bool.or_false,
        Bool.not_false, Bool.and_true] at h
      simp [endsBody, h]

theorem firstStatement_spec {trees before s rest : List Tree}
    (h : firstStatement before trees = some (s, rest)) : ∃ own, Cut before trees s rest own := by
  induction trees generalizing before with
  | nil =>
    rw [firstStatement] at h
    split at h
    case isTrue => cases h
    case isFalse hbefore =>
      cases h
      refine ⟨[], (List.append_nil _).symm, List.nil_subset _, List.suffix_rfl, fun _ => rfl, ?_⟩
      intro rest' hhead
      obtain rfl := List.head?_eq_none_iff.1 hhead
      rw [List.append_nil, firstStatement, if_neg hbefore]
  | cons t more ih =>
    cases t with
    | leaf t =>
      rw [firstStatement] at h
      split at h
      case isTrue hdirective =>
        split at h
        case isTrue hbefore =>
          cases h
          obtain rfl := List.isEmpty_iff.1 hbefore
          exact ⟨_, .last fun rest' _ => by rw [firstStatement, if_pos hdirective]; rfl⟩
        case isFalse hbefore =>
          obtain ⟨own, hown⟩ := ih h
          have hkind : (Tree.leaf t).isKind .directive = true := by simp [Tree.isKind, hdirective]
          exact ⟨own, hown.skip (fun hnil => hbefore (List.isEmpty_iff.2 hnil)) hkind⟩
      case isFalse hdirective =>
        split at h
        case isTrue hends =>
          cases h
          exact ⟨_, .last fun rest' _ => by rw [firstStatement, if_neg hdirective, if_pos hends]⟩
        case isFalse hends =>
          obtain ⟨own, hown⟩ := ih h
          exact ⟨_, hown.cons fun rest' _ => by
            rw [firstStatement, if_neg hdirective, if_neg hends]⟩
    | group l inner r =>
      rw [firstStatement] at h
      split at h
      case isTrue hends =>
        cases h
        exact ⟨_, .last fun rest' hrest => by rw [firstStatement, hrest, if_pos hends]⟩
      case isFalse hends =>
        obtain ⟨own, hown⟩ := ih h
        refine ⟨_, hown.cons fun rest' hrest => ?_⟩
        have hagain : ¬ endsBody before l inner r (own ++ rest').head? = true :=
          not_endsBody hends fun hkind => hown.head?_append (.inr hkind) hrest
        rw [firstStatement, if_neg hagain]

/-- Only an empty list has no first statement. -/
theorem firstStatement_eq_none {before trees : List Tree} (h : firstStatement before trees = none) :
    before = [] ∧ trees = [] := by
  induction trees generalizing before with
  | nil =>
    rw [firstStatement] at h
    split at h
    case isTrue hbefore => exact ⟨List.isEmpty_iff.1 hbefore, rfl⟩
    case isFalse => cases h
  | cons t more ih =>
    cases t with
    | leaf t =>
      rw [firstStatement] at h
      split at h
      case isTrue =>
        split at h
        case isTrue => cases h
        case isFalse hbefore => exact absurd (List.isEmpty_iff.2 (ih h).1) hbefore
      case isFalse =>
        split at h
        case isTrue => cases h
        case isFalse => exact absurd (ih h).1 (by simp)
    | group l inner r =>
      rw [firstStatement] at h
      split at h
      case isTrue => cases h
      case isFalse => exact absurd (ih h).1 (by simp)

/-- An access label is a statement whatever follows. -/
theorem firstStatement_label {t c : Tree} (h : (isLabel [t] && c.isMark ":") = true)
    (rest : List Tree) : firstStatement [] (t :: c :: rest) = some ([t, c], rest) := by
  obtain ⟨hlabel, hcolon⟩ := Bool.and_eq_true_iff.1 h
  cases t with
  | group l inner r => simp [isLabel, Tree.isOneOf, Tree.word?] at hlabel
  | leaf t =>
    cases c with
    | group l inner r => cases hcolon
    | leaf c =>
      have hword : t.kind = .word := Decidable.byContradiction fun hkind => by
        simp [isLabel, Tree.isOneOf, Tree.word?, hkind] at hlabel
      have hmark : c.isMark ":" = true := hcolon
      have hkind : c.kind = .mark := by
        simp only [Token.isMark, Bool.and_eq_true, beq_iff_eq] at hmark
        exact hmark.1
      have hgoes : endsStatement [] t = false := by simp [endsStatement, Token.isMark, hword]
      have hends : endsStatement [.leaf t] c = true := by simp [endsStatement, hmark, hlabel]
      rw [firstStatement, if_neg (by simp [hword]), if_neg (by simp [hgoes]), List.nil_append,
        firstStatement, if_neg (by simp [hkind]), if_pos hends]
      rfl

/-! ### Taking out what is hidden -/

/-- The entries of a class body without the hidden declarations. -/
def withoutHidden (isPublic : Bool) : List BodyItem → List BodyItem
  | [] => []
  | .access p :: more => .access p :: withoutHidden p more
  | .member d :: more =>
    if isPublic then .member d :: withoutHidden isPublic more else withoutHidden isPublic more

/-- The statements of a class body without the hidden declarations. -/
def keptStatements (isPublic : Bool) : List Statement → List Statement
  | [] => []
  | s :: more =>
    match BodyItem.ofStatement s with
    | .access p => s :: keptStatements p more
    | .member _ =>
      if isPublic then s :: keptStatements isPublic more else keptStatements isPublic more

theorem map_keptStatements (isPublic : Bool) (ss : List Statement) :
    (keptStatements isPublic ss).map BodyItem.ofStatement =
      withoutHidden isPublic (ss.map BodyItem.ofStatement) := by
  induction ss generalizing isPublic with
  | nil => rfl
  | cons s more ih =>
    rw [keptStatements, List.map_cons]
    cases hitem : BodyItem.ofStatement s with
    | access p => rw [List.map_cons, hitem, ih, withoutHidden]
    | member d =>
      cases isPublic with
      | true => rw [if_pos rfl, List.map_cons, hitem, ih, withoutHidden, if_pos rfl]
      | false =>
        rw [if_neg Bool.false_ne_true, ih, withoutHidden, if_neg Bool.false_ne_true]

/-- The trees of statements in a row. -/
def treesOf (ss : List Statement) : List Tree := ss.flatMap (·.trees)

/-- A class body without its hidden declarations. Labels stay, and so does all that is public. -/
def publicBody (isPublic : Bool) (body : List Tree) : List Tree :=
  treesOf (keptStatements isPublic (statements none [] (unconditional 0 body)))

theorem Flat.mono {trees more : List Tree} (h : Flat more) (hsub : trees ⊆ more) : Flat trees :=
  fun t ht => h t (hsub ht)

theorem Cut.length_lt {before trees s rest own : List Tree} (h : Cut before trees s rest own)
    (htrees : trees ≠ []) : rest.length < trees.length := by
  have hle := h.rest_suffix.length_le
  have hpos := List.length_pos_iff.2 htrees
  rw [List.length_tail] at hle
  omega

theorem Cut.rest_subset {before trees s rest own : List Tree} (h : Cut before trees s rest own) :
    rest ⊆ trees :=
  fun _ ht => List.mem_of_mem_tail (h.rest_suffix.subset ht)

theorem statements_of_first {trees s rest : List Tree} (h : Flat trees)
    (hfirst : firstStatement [] trees = some (s, rest)) :
    statements none [] trees = ⟨none, s⟩ :: statements none [] rest := by
  rw [statements_eq (by exact h), hfirst]

/-- What is kept of a public list begins like the list. -/
theorem head?_keptTrees {trees : List Tree} (h : Flat trees) :
    (treesOf (keptStatements true (statements none [] trees))).head? = trees.head? := by
  cases hfirst : firstStatement [] trees with
  | none =>
    rw [(firstStatement_eq_none hfirst).2, statements]
    rfl
  | some cut =>
    obtain ⟨s, rest⟩ := cut
    obtain ⟨own, hcut⟩ := firstStatement_spec hfirst
    obtain rfl : s = own := hcut.statement
    have hkept : ∃ more, keptStatements true (⟨none, s⟩ :: statements none [] rest) =
        ⟨none, s⟩ :: more := by
      rw [keptStatements]
      split
      · exact ⟨_, rfl⟩
      · exact ⟨_, if_pos rfl⟩
    obtain ⟨more, hmore⟩ := hkept
    have hhead := hcut.head (.inl rfl)
    rw [statements_of_first h hfirst, hmore, treesOf, List.flatMap_cons]
    cases s with
    | cons t s => exact hhead
    | nil =>
      obtain rfl := List.head?_eq_none_iff.1 hhead.symm
      cases hfirst

theorem treesOf_cons (trees : List Tree) (ss : List Statement) :
    treesOf (⟨none, trees⟩ :: ss) = trees ++ treesOf ss := List.flatMap_cons ..

/-- A label as an entry is a label as text. -/
theorem label_of_access {s : Statement} {p : Bool} (h : BodyItem.ofStatement s = .access p) :
    ∃ t c, s.trees = [t, c] ∧ (isLabel [t] && c.isMark ":") = true := by
  unfold BodyItem.ofStatement at h
  split at h
  case h_1 t c heq =>
    split at h
    case isTrue hlabel => exact ⟨t, c, heq, hlabel⟩
    case isFalse => cases h
  case h_2 => cases h

/-- **What is kept is found again, statement by statement.** Induction on the length of the list.
Its first statement is a label, or it is kept in front of what begins as before, or taken out. -/
theorem statements_keptTrees {trees : List Tree} (h : Flat trees) (isPublic : Bool) :
    statements none [] (treesOf (keptStatements isPublic (statements none [] trees))) =
      keptStatements isPublic (statements none [] trees) ∧
    treesOf (keptStatements isPublic (statements none [] trees)) ⊆ trees := by
  induction hn : trees.length using Nat.strongRecOn generalizing trees isPublic with
  | ind n ih =>
  cases hfirst : firstStatement [] trees with
  | none =>
    rw [(firstStatement_eq_none hfirst).2]
    simp [keptStatements, treesOf, statements]
  | some cut =>
    obtain ⟨s, rest⟩ := cut
    obtain ⟨own, hcut⟩ := firstStatement_spec hfirst
    obtain rfl : s = own := hcut.statement
    have hlt : rest.length < n := by
      rw [← hn]
      refine hcut.length_lt ?_
      rintro rfl
      cases hfirst
    have hrest : Flat rest := h.mono hcut.rest_subset
    -- a statement in front of what is kept of the rest, if it ends there as before
    have kept : ∀ p, firstStatement [] (s ++ treesOf (keptStatements p (statements none [] rest))) =
          some (s, treesOf (keptStatements p (statements none [] rest))) →
        statements none [] (treesOf (⟨none, s⟩ :: keptStatements p (statements none [] rest))) =
          ⟨none, s⟩ :: keptStatements p (statements none [] rest) ∧
        treesOf (⟨none, s⟩ :: keptStatements p (statements none [] rest)) ⊆ trees := by
      intro p hends
      obtain ⟨hsame, hsub⟩ := ih rest.length hlt hrest p rfl
      have hall : s ++ treesOf (keptStatements p (statements none [] rest)) ⊆ trees :=
        List.append_subset.2 ⟨hcut.own_subset, List.Subset.trans hsub hcut.rest_subset⟩
      rw [treesOf_cons, statements_of_first (h.mono hall) hends]
      exact ⟨congrArg _ hsame, hall⟩
    rw [statements_of_first h hfirst, keptStatements]
    split
    case h_1 p hitem =>
      obtain ⟨t, c, rfl, hlabel⟩ := label_of_access hitem
      exact kept p (firstStatement_label hlabel _)
    case h_2 =>
      cases isPublic with
      | true => exact kept true (hcut.again _ (head?_keptTrees hrest))
      | false =>
        obtain ⟨hsame, hsub⟩ := ih rest.length hlt hrest false rfl
        exact ⟨hsame, List.Subset.trans hsub hcut.rest_subset⟩

/-! ### Conditions of the preprocessor -/

/-- Whether a tree opens or closes a condition of the preprocessor. -/
def isCondition (t : Tree) : Bool :=
  (directiveOf? t).any fun w => w == "if" || w == "ifdef" || w == "ifndef" || w == "endif"

theorem unconditional_cons {t : Tree} (h : isCondition t = false) (rest : List Tree) :
    unconditional 0 (t :: rest) = t :: unconditional 0 rest := by
  rw [unconditional]
  split
  case h_1 w hw =>
    simp only [isCondition, hw, Option.any_some, Bool.or_eq_false_iff, beq_eq_false_iff_ne] at h
    obtain ⟨⟨⟨hif, hifdef⟩, hifndef⟩, hendif⟩ := h
    rw [if_neg (by simp [hif, hifdef, hifndef]), if_neg hendif, if_pos rfl]
  case h_2 => rfl

/-- What stands under no condition holds no condition. -/
theorem unconditional_subset (depth : Nat) (body : List Tree) :
    ∀ t ∈ unconditional depth body, t ∈ body ∧ isCondition t = false := by
  induction body generalizing depth with
  | nil => exact List.forall_mem_nil _
  | cons t rest ih =>
    have hrest : ∀ d, ∀ u ∈ unconditional d rest, u ∈ t :: rest ∧ isCondition u = false :=
      fun d u hu => ⟨List.mem_cons_of_mem t (ih d u hu).1, (ih d u hu).2⟩
    rw [unconditional]
    split
    case h_1 w hw =>
      split
      case isTrue => exact hrest _
      case isFalse hif =>
        split
        case isTrue => exact hrest _
        case isFalse hendif =>
          split
          case isTrue =>
            refine List.forall_mem_cons.2 ⟨⟨List.mem_cons_self, ?_⟩, hrest _⟩
            simp only [not_or] at hif
            simp [isCondition, hw, hif, hendif]
          case isFalse => exact hrest _
    case h_2 hw =>
      split
      case isTrue =>
        refine List.forall_mem_cons.2 ⟨⟨List.mem_cons_self, ?_⟩, hrest _⟩
        simp [isCondition, hw]
      case isFalse => exact hrest _

theorem unconditional_eq_self {body : List Tree} (h : ∀ t ∈ body, isCondition t = false) :
    unconditional 0 body = body := by
  induction body with
  | nil => rfl
  | cons t rest ih =>
    rw [unconditional_cons (h t List.mem_cons_self), ih fun u hu => h u (List.mem_cons_of_mem t hu)]

/-- **A class body without its hidden declarations reads as it did without them.** -/
theorem bodyItems_publicBody (isPublic : Bool) {body : List Tree} (h : Flat body) :
    bodyItems (publicBody isPublic body) = withoutHidden isPublic (bodyItems body) := by
  have hbody : Flat (unconditional 0 body) :=
    h.mono fun t ht => (unconditional_subset 0 body t ht).1
  obtain ⟨hsame, hsub⟩ := statements_keptTrees hbody isPublic
  have hfree : unconditional 0 (publicBody isPublic body) = publicBody isPublic body :=
    unconditional_eq_self fun t ht => (unconditional_subset 0 body t (hsub ht)).2
  rw [bodyItems, hfree, publicBody, hsame, map_keptStatements, bodyItems]

end Header
end Bindery
