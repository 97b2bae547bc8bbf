/-
# Paths of class names

A class is named by a path: identifiers with `::` between them, each with or without a list of
template arguments, perhaps behind the word `typename` and perhaps with a leading `::`. Between the
tokens of a path there may be blanks, and the argument lists may be nested in any way that leaves no
group open.

| of the text of a path | is found |
| --- | --- |
| the names | what stands between the `::` outside of groups (`ClassPath.Readable.names`) |
| the last name, without arguments | behind the last `::` (`lastSegment_append_scope`) |
| the end of the last argument list | behind the last `::` of all (`mem_lastSegment_concat`) |

A path is well formed if its names are identifiers. For reading it is enough that they are words
(`ClassPath.Readable`).
-/

import Bindery.Cpp.ClassReference
import Bindery.Header.Token
import Bindery.Proofs.Cpp.Arguments
import Bindery.Proofs.Cpp.Spacing

namespace Bindery
namespace Spelling

open Text

/-! ### Paths -/

/-- The word that makes a type constant. -/
def constWord : List Char := "const".toList

/-- What separates the identifiers of a path. -/
def scope : List Char := [':', ':']

/-- A word that can name something. -/
structure IsIdentifier (w : List Char) : Prop where
  nonempty : w ≠ []
  chars : ∀ c ∈ w, Header.isWordChar c = true
  notTypename : w ≠ typenameWord
  notConst : w ≠ constWord

-- not by a search through all characters, for which there is an instance as well
instance (w : List Char) : Decidable (IsIdentifier w) :=
  decidable_of_iff
    (w ≠ [] ∧ w.all Header.isWordChar = true ∧ w ≠ typenameWord ∧ w ≠ constWord)
    ⟨fun h => ⟨h.1, List.all_eq_true.1 h.2.1, h.2.2.1, h.2.2.2⟩,
      fun h => ⟨h.nonempty, List.all_eq_true.2 h.chars, h.notTypename, h.notConst⟩⟩

/-- An identifier with the tokens between the brackets of its template arguments, if it has any. -/
structure Segment where
  name : List Char
  args : Option (List (List Char)) := none

namespace Segment

/-- The tokens behind the name. -/
def brackets (s : Segment) : List (List Char) :=
  match s.args with
  | none => []
  | some ts => ['<'] :: (ts ++ [['>']])

def tokens (s : Segment) : List (List Char) := s.name :: s.brackets

/-- The tokens without blanks between them. -/
def text (s : Segment) : List Char := s.tokens.flatten

/-- The name is a word, and the arguments leave no group open. -/
structure Readable (s : Segment) : Prop where
  nonempty : s.name ≠ []
  parts : ∀ c ∈ s.name, isWordPart c = true
  args : ∀ ts ∈ s.args, Balanced ts.flatten

/-- The name is an identifier, and the arguments leave no group open. -/
structure WellFormed (s : Segment) : Prop where
  name : IsIdentifier s.name
  args : ∀ ts ∈ s.args, Balanced ts.flatten

instance (s : Segment) : Decidable s.WellFormed :=
  decidable_of_iff (IsIdentifier s.name ∧ ∀ ts ∈ s.args, Balanced ts.flatten)
    ⟨fun h => ⟨h.1, h.2⟩, fun h => ⟨h.name, h.args⟩⟩

end Segment

/-- A class name, as it is spelled. -/
structure ClassPath where
  /-- The word `typename` stands in front. -/
  announced : Bool := false
  /-- The path begins with `::`. -/
  rooted : Bool := false
  outer : List Segment := []
  last : Segment

namespace ClassPath

/-- The tokens behind `typename`. -/
def pathTokens (p : ClassPath) : List (List Char) :=
  (if p.rooted then [[':'], [':']] else []) ++
    p.outer.flatMap (fun s => s.tokens ++ [[':'], [':']]) ++ p.last.tokens

def tokens (p : ClassPath) : List (List Char) :=
  (if p.announced then [typenameWord] else []) ++ p.pathTokens

/-- The tokens behind `typename`, without blanks between them. -/
def text (p : ClassPath) : List Char :=
  (if p.rooted then scope else []) ++ p.outer.flatMap (fun s => s.text ++ scope) ++ p.last.text

structure Readable (p : ClassPath) : Prop where
  outer : ∀ s ∈ p.outer, s.Readable
  last : p.last.Readable

structure WellFormed (p : ClassPath) : Prop where
  outer : ∀ s ∈ p.outer, s.WellFormed
  last : p.last.WellFormed

instance (p : ClassPath) : Decidable p.WellFormed :=
  decidable_of_iff ((∀ s ∈ p.outer, s.WellFormed) ∧ p.last.WellFormed)
    ⟨fun h => ⟨h.1, h.2⟩, fun h => ⟨h.outer, h.last⟩⟩

/-- The first identifier. -/
def first (p : ClassPath) : List Char := (p.outer.head?.getD p.last).name

/-- The path with another last identifier. -/
def withLast (p : ClassPath) (name : List Char) : ClassPath :=
  { p with last := { p.last with name } }

/-- The path with another first identifier. -/
def withFirst (p : ClassPath) (name : List Char) : ClassPath :=
  match p.outer with
  | [] => { p with last := { p.last with name } }
  | s :: r => { p with outer := { s with name } :: r }

end ClassPath

/-! ### Characters of identifiers -/

theorem not_isWordChar_of_isBlank {c : Char} (h : isBlank c = true) :
    Header.isWordChar c = false := by
  have hsigns : c ≠ '_' ∧ c ≠ '$' := by
    constructor <;> rintro rfl <;> exact absurd h (by decide)
  have halphanum : c.isAlphanum = false := by
    rw [isBlank] at h
    simp only [Bool.or_eq_true, Bool.and_eq_true, decide_eq_true_eq, beq_iff_eq] at h
    rw [Bool.eq_false_iff]
    intro halphanum
    replace halphanum : ((decide (65 ≤ c.val ∧ c.val ≤ 90) ||
        (decide (97 ≤ c.val) && decide (c.val ≤ 122))) ||
        (decide (48 ≤ c.val) && decide (c.val ≤ 57))) = true := halphanum
    simp only [Bool.or_eq_true, Bool.and_eq_true, decide_eq_true_eq,
      UInt32.le_iff_toNat_le] at halphanum
    change ((65 ≤ c.toNat ∧ c.toNat ≤ 90) ∨ 97 ≤ c.toNat ∧ c.toNat ≤ 122) ∨
      48 ≤ c.toNat ∧ c.toNat ≤ 57 at halphanum
    omega
  simp [Header.isWordChar, halphanum, hsigns, h]

theorem isWordPart_of_isWordChar {c : Char} (h : Header.isWordChar c = true) :
    isWordPart c = true := by
  refine isWordPart_iff.2 ⟨fun hblank => ?_, fun hpunct => ?_⟩
  · exact Bool.false_ne_true ((not_isWordChar_of_isBlank hblank).symm.trans h)
  · simp only [isPunct, Bool.or_eq_true, beq_iff_eq] at hpunct
    rcases hpunct with ((((((((rfl | rfl) | rfl) | rfl) | rfl) | rfl) | rfl) | rfl) | rfl) | rfl <;>
      exact absurd h (by decide)

theorem parts_typenameWord : ∀ c ∈ typenameWord, isWordPart c = true :=
  List.all_eq_true.1 (by decide)

theorem parts_constWord : ∀ c ∈ constWord, isWordPart c = true :=
  List.all_eq_true.1 (by decide)

theorem IsIdentifier.parts {w : List Char} (h : IsIdentifier w) : ∀ c ∈ w, isWordPart c = true :=
  fun c hc => isWordPart_of_isWordChar (h.chars c hc)

theorem Segment.WellFormed.readable {s : Segment} (h : s.WellFormed) : s.Readable :=
  ⟨h.name.nonempty, h.name.parts, h.args⟩

theorem ClassPath.WellFormed.readable {p : ClassPath} (h : p.WellFormed) : p.Readable :=
  ⟨fun s hs => (h.outer s hs).readable, h.last.readable⟩

theorem not_mem_of_parts {w : List Char} (h : ∀ c ∈ w, isWordPart c = true) {mark : Char}
    (hmark : isPunct mark = true) : mark ∉ w :=
  fun hmem => (isWordPart_iff.1 (h mark hmem)).2 hmark

/-! ### Outside of groups -/

theorem isPunct_of_isGroup {c : Char} (h : isGroup c = true) : isPunct c = true := by
  simp only [isGroup, Bool.or_eq_true, beq_iff_eq] at h
  rcases h with ((rfl | rfl) | rfl) | rfl <;> rfl

theorem isGroup_of_isWordPart {c : Char} (h : isWordPart c = true) : isGroup c = false := by
  rw [Bool.eq_false_iff]
  exact fun hgroup => (isWordPart_iff.1 h).2 (isPunct_of_isGroup hgroup)

/-- A text that opens and closes no group is kept in front. -/
theorem outside_append_of_plain {w : List Char} (h : ∀ c ∈ w, isGroup c = false) (r : List Char) :
    outside 0 (w ++ r) = w ++ outside 0 r := by
  induction w with
  | nil => rfl
  | cons c w ih =>
    obtain ⟨hc, hw⟩ := List.forall_mem_cons.1 h
    rw [List.cons_append, outside, hc, ih hw]
    rfl

theorem outside_of_plain {cs : List Char} (h : ∀ c ∈ cs, isGroup c = false) :
    outside 0 cs = cs := by
  have hplain := outside_append_of_plain h []
  rwa [List.append_nil, outside, List.append_nil] at hplain

theorem isGroup_scope : ∀ c ∈ scope, isGroup c = false := by
  simp [scope, isGroup]

/-- A text that does not leave a group is passed over. Induction on the text, for any depth that
stays above zero. -/
theorem outside_append_of_enclosed {cs : List Char} {depth depth' : Nat}
    (hpos : ∀ q, q <+: cs → 0 < (depth : Int) + level q)
    (hdepth : (depth' : Int) = depth + level cs) (r : List Char) :
    outside depth (cs ++ r) = outside depth' r := by
  induction cs generalizing depth with
  | nil =>
    obtain rfl : depth' = depth := Int.ofNat.inj (by simpa using hdepth)
    rfl
  | cons c cs ih =>
    have hopen : ¬ (!isGroup c && depth == 0) = true := by
      have hstart := hpos [] (List.nil_prefix)
      rw [level_nil] at hstart
      simp only [Bool.and_eq_true, beq_iff_eq, not_and]
      omega
    have hnext : (nest depth c : Int) = depth + weight c := by
      refine nest_eq (Int.le_of_lt ?_)
      simpa using hpos [c] ⟨cs, rfl⟩
    rw [List.cons_append, outside, if_neg hopen, ih]
    · intro q hq
      rw [hnext, Int.add_assoc]
      exact hpos (c :: q) ((List.prefix_cons_inj c).2 hq)
    · rw [hdepth, hnext, level_cons, Int.add_assoc]

/-- Inside of a group nothing is kept. -/
theorem outside_of_balanced {cs : List Char} (h : Balanced cs) (r : List Char) :
    outside 1 (cs ++ r) = outside 1 r :=
  outside_append_of_enclosed (fun q hq => by have := h.nonneg q hq; omega) (by simp [h.closed]) r

/-- A group is left out. -/
theorem outside_group {cs : List Char} (h : Balanced cs) (r : List Char) :
    outside 0 (group cs ++ r) = outside 0 r := by
  rw [group, List.cons_append, List.append_assoc]
  show outside 1 (cs ++ '>' :: r) = _
  rw [outside_of_balanced h]
  rfl

/-! ### Cutting at `::` -/

theorem segments_of_not_mem {w : List Char} (h : ':' ∉ w) : segments w = [w] := by
  induction w with
  | nil => rfl
  | cons c r ih =>
    obtain ⟨hc, hr⟩ := not_or.1 (mt List.mem_cons.2 h)
    rw [segments.eq_def]
    split
    · rename_i heq
      exact absurd (List.cons.inj heq).1.symm hc
    · rename_i heq
      obtain ⟨rfl, rfl⟩ := List.cons.inj heq
      rw [ih hr]
      rfl
    · rename_i heq
      exact absurd heq nofun

theorem segments_append_scope {w : List Char} (h : ':' ∉ w) (r : List Char) :
    segments (w ++ (scope ++ r)) = w :: segments r := by
  induction w with
  | nil => rfl
  | cons c w ih =>
    obtain ⟨hc, hw⟩ := not_or.1 (mt List.mem_cons.2 h)
    rw [List.cons_append, segments.eq_def]
    split
    · rename_i heq
      exact absurd (List.cons.inj heq).1.symm hc
    · rename_i heq
      obtain ⟨rfl, rfl⟩ := List.cons.inj heq
      rw [ih hw]
      rfl
    · rename_i heq
      exact absurd heq nofun

theorem afterScope_of_not_mem {q : List Char} (h : ':' ∉ q) (current : List Char) :
    afterScope current q = current := by
  induction q with
  | nil => rfl
  | cons c r ih =>
    obtain ⟨hc, hr⟩ := not_or.1 (mt List.mem_cons.2 h)
    rw [afterScope, if_neg fun hand => hc hand.1.symm, ih hr]

/-- Behind the last `::` stands the last segment. Induction on what stands in front, for whatever
was found there. -/
theorem afterScope_append_scope {q : List Char} (h : ':' ∉ q) (p current : List Char) :
    afterScope current (p ++ (scope ++ q)) = q := by
  induction p generalizing current with
  | nil =>
    have hsecond : ¬ (':' = ':' ∧ q.head? = some ':') := by
      rintro ⟨-, hhead⟩
      exact h (List.mem_of_mem_head? hhead)
    show afterScope current (':' :: ':' :: q) = q
    rw [afterScope, if_pos ⟨rfl, rfl⟩, afterScope, if_neg hsecond, afterScope_of_not_mem h]
    rfl
  | cons c p ih =>
    rw [List.cons_append, afterScope]
    split <;> exact ih _

theorem lastSegment_append_scope {q : List Char} (h : ':' ∉ q) (p : List Char) :
    lastSegment (p ++ (scope ++ q)) = q :=
  afterScope_append_scope h p _

/-- The last character belongs to the last segment, unless it is a colon. -/
theorem mem_lastSegment_concat {c : Char} (hc : c ≠ ':') (p : List Char) :
    c ∈ lastSegment (p ++ [c]) := by
  have hkept : ∀ p current : List Char, c ∈ current → c ∈ afterScope current (p ++ [c]) := by
    intro p
    induction p with
    | nil =>
      intro current hcurrent
      rw [List.nil_append, afterScope, if_neg fun hand => hc hand.1]
      exact hcurrent
    | cons d p ih =>
      intro current hcurrent
      rw [List.cons_append, afterScope]
      split
      · rename_i hscope
        refine ih _ ?_
        cases p with
        | nil => exact absurd (Option.some.inj hscope.2) hc
        | cons e p => simp
      · exact ih _ hcurrent
  exact hkept p _ (by simp)

/-! ### Parts of a path -/

namespace Segment

theorem text_eq (s : Segment) : s.text = s.name ++ s.brackets.flatten := rfl

theorem tokens_of_none {s : Segment} (h : s.args = none) : s.tokens = [s.name] := by
  rw [tokens, brackets, h]

theorem tokens_of_some {s : Segment} {ts : List (List Char)} (h : s.args = some ts) :
    s.tokens = (s.name :: ['<'] :: ts) ++ [['>']] := by
  rw [tokens, brackets, h]
  rfl

theorem text_of_none {s : Segment} (h : s.args = none) : s.text = s.name := by
  simp [text, tokens, brackets, h]

theorem text_of_some {s : Segment} {ts : List (List Char)} (h : s.args = some ts) :
    s.text = s.name ++ group ts.flatten := by
  simp [text, tokens, brackets, h, group]

theorem Readable.not_mem {s : Segment} (h : s.Readable) {mark : Char}
    (hmark : isPunct mark = true) : mark ∉ s.name :=
  not_mem_of_parts h.parts hmark

theorem Readable.isGroup_eq_false {s : Segment} (h : s.Readable) :
    ∀ c ∈ s.name, isGroup c = false :=
  fun c hc => isGroup_of_isWordPart (h.parts c hc)

/-- Of a segment its name stands outside of groups. -/
theorem Readable.outside_text {s : Segment} (h : s.Readable) (r : List Char) :
    outside 0 (s.text ++ r) = s.name ++ outside 0 r := by
  cases hargs : s.args with
  | none => rw [text_of_none hargs, outside_append_of_plain h.isGroup_eq_false]
  | some ts =>
    rw [text_of_some hargs, List.append_assoc, outside_append_of_plain h.isGroup_eq_false,
      outside_group (h.args ts hargs)]

/-- A segment with arguments opens a group, and one without them none. -/
theorem Readable.mem_text_open {s : Segment} (h : s.Readable) :
    '<' ∈ s.text ↔ s.args.isSome = true := by
  cases hargs : s.args with
  | none => simpa [text_of_none hargs] using h.not_mem (by decide)
  | some ts => simp [text_of_some hargs, group]

end Segment

namespace ClassPath

theorem flatten_tokens (p : ClassPath) :
    p.tokens.flatten = (if p.announced then typenameWord else []) ++ p.text := by
  have houter : (p.outer.flatMap fun s => s.tokens ++ [[':'], [':']]).flatten =
      p.outer.flatMap fun s => s.text ++ scope := by
    induction p.outer with
    | nil => rfl
    | cons s l ih =>
      rw [List.flatMap_cons, List.flatten_append, ih, List.flatten_append, List.flatMap_cons]
      rfl
  rw [tokens, pathTokens, List.flatten_append, List.flatten_append, List.flatten_append, houter,
    text]
  cases p.announced <;> cases p.rooted <;> rfl

/-- A path that is neither announced nor rooted begins with its first identifier. -/
theorem exists_tokens_eq_first {p : ClassPath} (ha : p.announced = false) (hr : p.rooted = false) :
    ∃ ts, p.tokens = p.first :: ts := by
  rw [tokens, pathTokens, ha, hr, first]
  cases p.outer with
  | nil => exact ⟨_, rfl⟩
  | cons s l => exact ⟨_, rfl⟩

theorem text_withFirst {p : ClassPath} (hr : p.rooted = false) (name : List Char) :
    (p.withFirst name).text = name ++ (p.withFirst []).text := by
  rcases p with ⟨announced, rooted, outer, last⟩
  obtain rfl : rooted = false := hr
  cases outer with
  | nil => rfl
  | cons s l =>
    simp only [withFirst, text, Segment.text_eq, List.flatMap_cons, List.append_assoc]
    rfl

theorem withFirst_first (p : ClassPath) : p.withFirst p.first = p := by
  rcases p with ⟨announced, rooted, outer, last⟩
  cases outer <;> rfl

theorem Readable.first {p : ClassPath} (h : p.Readable) :
    p.first ≠ [] ∧ ∀ c ∈ p.first, isWordPart c = true := by
  rcases p with ⟨announced, rooted, outer, last⟩
  cases outer with
  | nil => exact ⟨h.last.nonempty, h.last.parts⟩
  | cons s l =>
    have hs := h.outer s List.mem_cons_self
    exact ⟨hs.nonempty, hs.parts⟩

theorem Readable.withFirst {p : ClassPath} (h : p.Readable) {name : List Char}
    (hname : name ≠ []) (hparts : ∀ c ∈ name, isWordPart c = true) :
    (p.withFirst name).Readable := by
  rcases p with ⟨announced, rooted, outer, last⟩
  cases outer with
  | nil => exact ⟨nofun, hname, hparts, h.last.args⟩
  | cons s l =>
    obtain ⟨hs, hl⟩ := List.forall_mem_cons.1 h.outer
    exact ⟨List.forall_mem_cons.2 ⟨⟨hname, hparts, hs.args⟩, hl⟩, h.last⟩

/-- The text in front of the last segment. -/
def outerText (p : ClassPath) : List Char :=
  (if p.rooted then scope else []) ++ p.outer.flatMap (fun s => s.text ++ scope)

theorem text_eq (p : ClassPath) : p.text = p.outerText ++ p.last.text := rfl

/-- In front of the last segment stands nothing, or a text that ends with `::`. -/
theorem outerText_cases (p : ClassPath) : p.outerText = [] ∨ ∃ t, p.outerText = t ++ scope := by
  rcases List.eq_nil_or_concat p.outer with hnil | ⟨l, o, hconcat⟩
  · rw [outerText, hnil]
    cases p.rooted with
    | false => exact .inl rfl
    | true => exact .inr ⟨[], rfl⟩
  · rw [List.concat_eq_append] at hconcat
    rw [outerText, hconcat, List.flatMap_append, List.flatMap_singleton, ← List.append_assoc,
      ← List.append_assoc]
    exact .inr ⟨_, rfl⟩

theorem outside_outer {outer : List Segment} (h : ∀ s ∈ outer, s.Readable) (r : List Char) :
    outside 0 (outer.flatMap (fun s => s.text ++ scope) ++ r) =
      outer.flatMap (fun s => s.name ++ scope) ++ outside 0 r := by
  induction outer with
  | nil => rfl
  | cons s l ih =>
    obtain ⟨hs, hl⟩ := List.forall_mem_cons.1 h
    have hscope : ∀ t, outside 0 (scope ++ t) = scope ++ outside 0 t :=
      outside_append_of_plain isGroup_scope
    rw [List.flatMap_cons, List.append_assoc, List.append_assoc, hs.outside_text, hscope, ih hl,
      List.flatMap_cons, List.append_assoc, List.append_assoc]

theorem segments_outer {outer : List Segment} (h : ∀ s ∈ outer, s.Readable) (r : List Char) :
    segments (outer.flatMap (fun s => s.name ++ scope) ++ r) =
      outer.map (·.name) ++ segments r := by
  induction outer with
  | nil => rfl
  | cons s l ih =>
    obtain ⟨hs, hl⟩ := List.forall_mem_cons.1 h
    rw [List.flatMap_cons, List.append_assoc, List.append_assoc,
      segments_append_scope (hs.not_mem (by decide)), ih hl, List.map_cons, List.cons_append]

/-- **The names of a path** are what stands between the `::` outside of groups. -/
theorem Readable.names {p : ClassPath} (h : p.Readable) :
    (segments (outside 0 p.text)).filter (· ≠ []) = p.outer.map (·.name) ++ [p.last.name] := by
  have hlast : outside 0 p.last.text = p.last.name := by
    have hend := h.last.outside_text []
    rwa [List.append_nil, outside, List.append_nil] at hend
  have hroot : outside 0 p.text = (if p.rooted then scope else []) ++
      (p.outer.flatMap (fun s => s.name ++ scope) ++ p.last.name) := by
    have hplain : ∀ c ∈ (if p.rooted then scope else []), isGroup c = false := by
      split
      · exact isGroup_scope
      · exact List.forall_mem_nil _
    rw [text, List.append_assoc, outside_append_of_plain hplain, outside_outer h.outer, hlast]
  have hnames : segments (p.outer.flatMap (fun s => s.name ++ scope) ++ p.last.name) =
      p.outer.map (·.name) ++ [p.last.name] := by
    rw [segments_outer h.outer, segments_of_not_mem (h.last.not_mem (by decide))]
  have hkept : (p.outer.map (·.name) ++ [p.last.name]).filter (· ≠ []) =
      p.outer.map (·.name) ++ [p.last.name] := by
    refine List.filter_eq_self.2 fun w hw => decide_eq_true ?_
    rcases List.mem_append.1 hw with hw | hw
    · obtain ⟨s, hs, rfl⟩ := List.mem_map.1 hw
      exact (h.outer s hs).nonempty
    · rw [List.mem_singleton.1 hw]
      exact h.last.nonempty
  rw [hroot]
  cases p.rooted with
  | false => rw [if_neg nofun, List.nil_append, hnames, hkept]
  | true =>
    have hempty := segments_append_scope (w := []) (by simp)
      (p.outer.flatMap (fun s => s.name ++ scope) ++ p.last.name)
    rw [List.nil_append] at hempty
    rw [if_pos rfl, hempty, hnames, List.filter_cons_of_neg (by simp), hkept]

end ClassPath
end Spelling
end Bindery
