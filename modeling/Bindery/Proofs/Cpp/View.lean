/-
# Reading and writing the types of array views

A view type has one canonical spelling and endlessly many others. What may differ:

* blanks, as long as the tokens are the same;
* the order of the arguments behind the data type;
* the memory space `M`, which may be wrapped in `Kokkos::Device<E,M>` any number of times
  (`Space.Names`). One pair of `E` and `M` is a space of its own and is left out.

However it is spelled, the view that was written is read (`View.spellings_agree`). A spelling is
normalised first, which leaves nothing of the blanks (`View.normalize_nameWith`). What stands between
the outer brackets is cut into the arguments that were joined. The data type gives the element type,
`const` and the rank (`View.ofData?_baseName`). Each of the others decides one setting
(`View.Setting`), and settings of one view can be made in any order (`View.foldlM_perm`).
-/

import Bindery.Proofs.Cpp.Arguments
import Bindery.Proofs.Cpp.Tokens
import Mathlib.Data.List.Perm.Basic

namespace Bindery

open Text Spelling

/-! ### Memory spaces -/

namespace Space

/-- What stands in front of the execution space and the memory space of a device. -/
def deviceOpen : List Char := "Kokkos::Device".toList

/-- The names of a memory space: its own, and a device with the space under an execution space
that is balanced and has neither a blank nor an open comma. -/
inductive Names (s : Space) : String → Prop where
  | plain : Names s s.cppName
  | device {memory : String} (execution : String) (balanced : Balanced execution.toList)
      (encloses : Encloses ',' execution.toList) (tight : Tight execution.toList)
      (other : ¬ (execution = "Kokkos::OpenMP" ∧ memory = "Kokkos::HostSpace")) :
      Names s memory → Names s ("Kokkos::Device<" ++ execution ++ "," ++ memory ++ ">")

theorem toList_open : "Kokkos::Device<".toList = deviceOpen ++ ['<'] := by decide

theorem toList_device (execution memory : String) :
    ("Kokkos::Device<" ++ execution ++ "," ++ memory ++ ">").toList =
      deviceOpen ++ group ([','].intercalate [execution.toList, memory.toList]) := by
  have hcomma : ",".toList = [','] := rfl
  have hclose : ">".toList = ['>'] := rfl
  simp only [String.toList_append, toList_open, hcomma, hclose, join_cons_cons,
    List.intercalate_singleton, group, List.append_assoc, List.cons_append, List.nil_append]

/-- A device is no name that begins otherwise. -/
theorem device_ne {name : String} (h : ¬ deviceOpen <+: name.toList) (inner : List Char) :
    String.ofList (deviceOpen ++ group inner) ≠ name := by
  rintro rfl
  rw [String.toList_ofList] at h
  exact h (List.prefix_append ..)

/-- The only device that is a space of its own is the host device. -/
theorem named?_device {inner : List Char} (h : inner ≠ "Kokkos::OpenMP,Kokkos::HostSpace".toList) :
    named? (deviceOpen ++ group inner) = none := by
  unfold named?
  split
  case h_2 heq =>
    have hinner := congrArg String.toList heq
    have hshape : "Kokkos::Device<Kokkos::OpenMP,Kokkos::HostSpace>".toList =
        deviceOpen ++ group "Kokkos::OpenMP,Kokkos::HostSpace".toList := by decide
    rw [String.toList_ofList, hshape, List.append_cancel_left_eq] at hinner
    exact absurd (List.append_cancel_right (List.cons.inj hinner).2) h
  case h_12 => rfl
  all_goals exact absurd (by assumption) (device_ne (by decide) inner)

theorem layout_device (inner : List Char) :
    Layout.ofArgument? (deviceOpen ++ group inner) = none := by
  unfold Layout.ofArgument?
  split
  case h_3 => rfl
  all_goals exact absurd (by assumption) (device_ne (by decide) inner)

/-- What is read of a name of a memory space, and what lets it stand as an argument. -/
structure Reads (s : Space) (memory : List Char) : Prop where
  part : IsPart memory
  tight : Tight memory
  notLayout : Layout.ofArgument? memory = none
  space : ofArgument? memory = some s

theorem ofArgument?_of_named? {arg : List Char} {s : Space} (h : named? arg = some s) :
    ofArgument? arg = some s := by
  rw [ofArgument?]
  simp only [h]

theorem ofArgument?_of_memory {arg memory : List Char} (h : named? arg = none)
    (hmemory : deviceMemory? arg = some memory) : ofArgument? arg = ofArgument? memory := by
  rw [ofArgument?]
  simp only [h]
  split
  case h_1 heq =>
    rw [hmemory] at heq
    rw [Option.some.inj heq]
  case h_2 heq => simp [hmemory] at heq

theorem ofArgument?_of_none {arg : List Char} (h : named? arg = none)
    (hmemory : deviceMemory? arg = none) : ofArgument? arg = none := by
  rw [ofArgument?]
  simp only [h]
  split
  case h_1 heq => simp [hmemory] at heq
  case h_2 => rfl

theorem reads_plain (s : Space) : Reads s s.cppName.toList where
  part := by cases s <;> decide +kernel
  tight := by cases s <;> decide
  notLayout := by cases s <;> decide
  space := ofArgument?_of_named? (by cases s <;> decide)

theorem between?_device (inner : List Char) :
    between? "Kokkos::Device<".toList ['>'] (deviceOpen ++ group inner) = some inner := by
  have hshape : deviceOpen ++ group inner = "Kokkos::Device<".toList ++ (inner ++ ['>']) := by
    rw [toList_open, List.append_assoc, group, List.singleton_append]
  rw [hshape]
  exact between?_append ..

/-- **A device is read as the memory space in it.** -/
theorem Reads.device {s : Space} {execution memory : List Char} (h : Reads s memory)
    (balanced : Balanced execution) (encloses : Encloses ',' execution) (tight : Tight execution)
    (other : [','].intercalate [execution, memory] ≠ "Kokkos::OpenMP,Kokkos::HostSpace".toList) :
    Reads s (deviceOpen ++ group ([','].intercalate [execution, memory])) := by
  have hinner : Balanced ([','].intercalate [execution, memory]) :=
    balanced_join (by simpa using ⟨balanced, h.part.balanced⟩)
  have hflat : deviceOpen.all (weight · == 0) = true := by decide
  have hopen : Balanced deviceOpen := balanced_of_weight (by simpa using hflat)
  have harguments : arguments ([','].intercalate [execution, memory]) = [execution, memory] := by
    refine arguments_join ?_ (by simpa using h.part.nonempty)
    simpa using ⟨⟨balanced, encloses, tight.trim⟩, h.part.balanced, h.part.encloses, h.tight.trim⟩
  have hmemory : deviceMemory? (deviceOpen ++ group ([','].intercalate [execution, memory])) =
      some memory := by
    simp only [deviceMemory?, between?_device, harguments]
  exact {
    part :=
      ⟨hopen.append hinner.group, by simp [group],
        (encloses_of_not_mem (by decide)).append hopen.closed
          (hinner.encloses_group (by decide))⟩
    tight := by
      have hcomma : Tight (',' :: memory) := List.forall_mem_cons.2 ⟨by decide, h.tight⟩
      refine Tight.append (by decide) (List.forall_mem_cons.2 ⟨by decide, ?_⟩)
      rw [join_cons_cons, List.intercalate_singleton]
      exact (tight.append hcomma).append (by decide)
    notLayout := layout_device _
    space := by rw [ofArgument?_of_memory (named?_device other) hmemory, h.space] }

/-- **Every name of a memory space is read as that space.** Induction on the devices around it. -/
theorem Names.reads {s : Space} {memory : String} (h : s.Names memory) :
    Reads s memory.toList := by
  induction h with
  | plain => exact reads_plain s
  | @device memory execution balanced encloses tight other _ ih =>
    rw [toList_device]
    refine ih.device balanced encloses tight fun heq => other ?_
    have hpair : "Kokkos::OpenMP,Kokkos::HostSpace".toList =
        "Kokkos::OpenMP".toList ++ ',' :: "Kokkos::HostSpace".toList := by decide
    rw [join_cons_cons, List.intercalate_singleton, hpair] at heq
    obtain ⟨he, hm⟩ := eq_of_append_mark balanced.closed (by decide) encloses
      (encloses_of_not_mem (by decide)) heq
    exact ⟨String.toList_inj.1 he, String.toList_inj.1 hm⟩

end Space
namespace View

/-! ### Settings -/

/-- What an argument behind the data type decides. -/
inductive Setting where
  | layout (layout : Layout)
  | space (space : Space)
  | trait (trait : Trait)

/-- Makes a setting. -/
def set (v : View) : Setting → View
  | .layout layout => { v with layout }
  | .space space => { v with space }
  | .trait trait => { v with trait }

/-- Whether a setting is one of a view. -/
def Has (v : View) : Setting → Prop
  | .layout layout => v.layout = layout
  | .space space => v.space = space
  | .trait trait => v.trait = trait

/-- Two settings of one view can be made in either order. -/
theorem set_comm {v : View} {x y : Setting} (hx : v.Has x) (hy : v.Has y) (u : View) :
    (u.set x).set y = (u.set y).set x := by
  cases x <;> cases y <;> cases hx <;> cases hy <;> rfl

/-- Whether an argument is read as a setting. -/
def Decides (arg : String) (x : Setting) : Prop :=
  ∀ u : View, u.withArgument? arg.toList = some (u.set x)

theorem decides_layout {layout : Layout} {name : String} (h : layout.cppName? = some name) :
    Decides name (.layout layout) := by
  intro u
  have hread : Layout.ofArgument? name.toList = some layout := by
    revert h
    cases layout <;> rintro ⟨⟩ <;> decide
  simp only [withArgument?, hread]
  rfl

theorem decides_space {space : Space} {name : String} (h : space.Names name) :
    Decides name (.space space) := by
  intro u
  simp only [withArgument?, h.reads.notLayout, h.reads.space]
  rfl

theorem decides_trait {trait : Trait} {name : String} (h : trait.cppName? = some name) :
    Decides name (.trait trait) := by
  intro u
  have hlayout : Layout.ofArgument? name.toList = none := by
    revert h
    cases trait <;> rintro ⟨⟩ <;> decide
  have hspace : Space.ofArgument? name.toList = none := by
    have hnamed : Space.named? name.toList = none ∧ Space.deviceMemory? name.toList = none := by
      revert h
      cases trait <;> rintro ⟨⟩ <;> decide
    exact Space.ofArgument?_of_none hnamed.1 hnamed.2
  have hread : Trait.ofArgument? name.toList = some trait := by
    revert h
    cases trait <;> rintro ⟨⟩ <;> decide
  simp only [withArgument?, hlayout, hspace, hread]
  rfl

/-- The arguments behind the data type, with a given name for the memory space. -/
def argumentsWith (v : View) (memory : String) : List String :=
  v.layout.cppName?.toList ++ [memory] ++ v.trait.cppName?.toList

/-- Each argument decides one setting of the view. -/
theorem decides_of_mem {v : View} {memory arg : String} (hm : v.space.Names memory)
    (h : arg ∈ v.argumentsWith memory) : ∃ x, v.Has x ∧ Decides arg x := by
  simp only [argumentsWith, List.mem_append, List.mem_singleton, Option.mem_toList] at h
  obtain (hl | rfl) | ht := h
  · exact ⟨.layout v.layout, rfl, decides_layout hl⟩
  · exact ⟨.space v.space, rfl, decides_space hm⟩
  · exact ⟨.trait v.trait, rfl, decides_trait ht⟩

/-- **The order of the arguments does not matter.** -/
theorem foldlM_perm {v : View} {memory : String} (hm : v.space.Names memory) {args : List String}
    (h : args.Perm (v.argumentsWith memory)) (u : View) :
    (args.map String.toList).foldlM withArgument? u =
      ((v.argumentsWith memory).map String.toList).foldlM withArgument? u := by
  simp only [List.foldlM_map]
  rw [List.foldlM_eq_foldl, List.foldlM_eq_foldl]
  refine h.foldl_eq' (fun a ha b hb z => ?_) _
  obtain ⟨x, hx, hax⟩ := decides_of_mem hm (h.mem_iff.1 ha)
  obtain ⟨y, hy, hby⟩ := decides_of_mem hm (h.mem_iff.1 hb)
  cases z with
  | none => rfl
  | some u =>
    have hswap := set_comm hx hy u
    simp only [Option.bind_eq_bind, Option.bind_some, hax u, hby u, hby (u.set x), hax (u.set y),
      hswap]

/-- An argument that may be left out makes its setting, if it is left out for the setting that is
there already. -/
theorem foldlM_toList {name? : Option String} {x : Setting} {u : View}
    (hsome : ∀ name, name? = some name → Decides name x) (hnone : name? = none → u.set x = u) :
    (name?.toList.map String.toList).foldlM withArgument? u = some (u.set x) := by
  cases name? with
  | none => rw [hnone rfl]; rfl
  | some name =>
    have hread := hsome name rfl u
    simp [hread]

/-- In the order in which they are written, the arguments make all the settings of the view. -/
theorem foldlM_argumentsWith {v : View} {memory : String} (hm : v.space.Names memory) :
    ((v.argumentsWith memory).map String.toList).foldlM withArgument?
      { scalar := v.scalar, rank := v.rank, isConst := v.isConst } = some v := by
  have hlayout : v.layout.cppName? = none → v.layout = .default := by
    cases v.layout <;> decide
  have htrait : v.trait.cppName? = none → v.trait = .default := by
    cases v.trait <;> decide
  have hspace := decides_space hm
  have hl := foldlM_toList (u := { scalar := v.scalar, rank := v.rank, isConst := v.isConst })
    (fun _ => decides_layout) fun h => by rw [hlayout h]; rfl
  have ht := foldlM_toList (u := { v with trait := .default })
    (fun _ => decides_trait) fun h => by rw [htrait h]; rfl
  rw [argumentsWith, List.map_append, List.map_append, List.foldlM_append, List.foldlM_append, hl]
  simp only [Option.bind_eq_bind, Option.bind_some, List.map_cons, List.map_nil, List.foldlM_cons,
    List.foldlM_nil, hspace _]
  exact ht

/-! ### The data type -/

/-- The element type and `const`. -/
def baseName (scalar : Scalar) (isConst : Bool) : List Char :=
  (scalar.cppName ++ if isConst then " const" else "").toList

theorem toList_dataName (v : View) :
    v.dataName.toList = baseName v.scalar v.isConst ++ List.replicate v.rank '*' := by
  rw [dataName, String.toList_append, String.toList_ofList, baseName]

theorem ofData?_baseName (rank : Nat) (scalar : Scalar) (isConst : Bool) :
    ofData? rank (baseName scalar isConst) = some { scalar, rank, isConst } := by
  have hread : (Scalar.ofSpelling? (" ".intercalate
      (((words (baseName scalar isConst)).filter (· ≠ "const".toList)).map String.ofList)) =
        some scalar) ∧ (words (baseName scalar isConst)).contains "const".toList = isConst := by
    cases scalar <;> cases isConst <;> decide +kernel
  simp only [ofData?, hread.1, hread.2, Option.map_some]

/-- What every element type with or without `const` has: it is not empty and holds no punctuation,
it does not start with a blank, and it is written in normal form in front of the first star. -/
structure IsBase (base : List Char) : Prop where
  wordy : Wordy base
  nonempty : base ≠ []
  first : base.head?.any isBlank = false
  normal : squeeze none false ("Kokkos::View<".toList ++ base ++ ['*']) =
    "Kokkos::View<".toList ++ base ++ ['*']

theorem isBase_baseName (scalar : Scalar) (isConst : Bool) :
    IsBase (baseName scalar isConst) where
  wordy := by cases scalar <;> cases isConst <;> decide
  nonempty := by cases scalar <;> cases isConst <;> decide
  first := by cases scalar <;> cases isConst <;> decide
  normal := by cases scalar <;> cases isConst <;> decide +kernel

theorem isArgument_dataName {v : View} (hrank : 1 ≤ v.rank) : IsArgument v.dataName.toList := by
  have hbase := isBase_baseName v.scalar v.isConst
  obtain ⟨n, hn⟩ := Nat.exists_eq_add_of_le' hrank
  have hcomma : ',' ∉ baseName v.scalar v.isConst := hbase.wordy.not_mem rfl
  rw [toList_dataName, hn]
  refine ⟨balanced_of_weight (List.forall_mem_append.2 ⟨hbase.wordy.weight, ?_⟩),
    encloses_of_not_mem ?_, trim_eq_self ?_ ?_⟩
  · simp [weight]
  · simp [hcomma]
  · intro c hc
    rw [List.head?_append_of_ne_nil _ hbase.nonempty] at hc
    have hfirst := hbase.first
    rwa [Option.mem_def.1 hc] at hfirst
  · rw [List.replicate_succ', ← List.append_assoc, List.getLast?_concat]
    rintro _ ⟨⟩
    decide

/-- The stars of the data type give the rank. -/
theorem dropEndWhile_dataName (v : View) :
    dropEndWhile (· == '*') v.dataName.toList = baseName v.scalar v.isConst := by
  rw [toList_dataName]
  refine dropEndWhile_append (by simp) fun c hc => ?_
  have hbase := isBase_baseName v.scalar v.isConst
  rw [beq_eq_false_iff_ne]
  rintro rfl
  exact hbase.wordy.not_mem rfl (List.mem_of_mem_getLast? hc)

/-! ### The whole name -/

/-- The name of a view type with given arguments behind the data type. -/
def nameWith (v : View) (args : List String) : String :=
  "Kokkos::View<" ++ ",".intercalate (v.dataName :: args) ++ ">"

theorem spelling_eq {v : View} (hrank : 1 ≤ v.rank ∧ v.rank ≤ maxRank) :
    v.spelling = .ok (v.nameWith (v.argumentsWith v.space.cppName)) := by
  rw [spelling, if_pos hrank]
  rfl

/-- The arguments of a view type, as characters. -/
def argumentChars (v : View) (args : List String) : List (List Char) :=
  v.dataName.toList :: args.map String.toList

theorem toList_nameWith (v : View) (args : List String) :
    (v.nameWith args).toList =
      "Kokkos::View<".toList ++ ([','].intercalate (v.argumentChars args) ++ ['>']) := by
  rw [nameWith, String.toList_append, String.toList_append, String.toList_intercalate,
    List.append_assoc]
  rfl

theorem tight_join {ws : List (List Char)} (h : ∀ w ∈ ws, Tight w) :
    Tight ([','].intercalate ws) := by
  induction ws with
  | nil => exact List.forall_mem_nil _
  | cons w r ih =>
    cases r with
    | nil => simpa using h
    | cons v r =>
      rw [join_cons_cons]
      exact (h w (List.mem_cons_self ..)).append
        (List.forall_mem_cons.2 ⟨by decide, ih fun u hu => h u (List.mem_cons_of_mem w hu)⟩)

/-- **The name of a view type is in normal form.** Its only blank stands in front of `const`. -/
theorem normalize_nameWith {v : View} {args : List String} (hrank : 1 ≤ v.rank)
    (hargs : ∀ arg ∈ args, Tight arg.toList) :
    Spelling.normalize (v.nameWith args) = v.nameWith args := by
  have hbase := isBase_baseName v.scalar v.isConst
  obtain ⟨n, hn⟩ := Nat.exists_eq_add_of_le' hrank
  obtain ⟨tail, htail, hjoin⟩ : ∃ tail, Tight tail ∧
      [','].intercalate (v.argumentChars args) = v.dataName.toList ++ tail := by
    cases args with
    | nil => exact ⟨[], List.forall_mem_nil _, by simp [argumentChars]⟩
    | cons arg args =>
      have htight : Tight ([','].intercalate ((arg :: args).map String.toList)) :=
        tight_join (by simpa using hargs)
      exact ⟨',' :: _, List.forall_mem_cons.2 ⟨by decide, htight⟩, join_cons_cons ..⟩
  have hshape : (v.nameWith args).toList = "Kokkos::View<".toList ++ baseName v.scalar v.isConst ++
      '*' :: (List.replicate n '*' ++ (tail ++ ['>'])) := by
    rw [toList_nameWith, hjoin, toList_dataName, hn, List.replicate_succ]
    simp only [List.append_assoc, List.cons_append]
  have hrest : Tight (List.replicate n '*' ++ (tail ++ ['>'])) := by
    refine Tight.append (fun c hc => ?_) (htail.append (by decide))
    rw [List.eq_of_mem_replicate hc]
    decide
  have hsqueeze : squeeze none false (v.nameWith args).toList = (v.nameWith args).toList := by
    rw [hshape, squeeze_append_cons _ (by decide), hbase.normal, squeeze_of_tight hrest,
      List.append_assoc, List.singleton_append]
  rw [Spelling.normalize, hsqueeze, String.ofList_toList]

/-- The arguments of a view type are found again. -/
theorem arguments_argumentChars {v : View} {args : List String} (hrank : 1 ≤ v.rank)
    (hargs : ∀ arg ∈ args, IsPart arg.toList ∧ Tight arg.toList) :
    arguments ([','].intercalate (v.argumentChars args)) = v.argumentChars args := by
  have hdata : v.dataName.toList ≠ [] := by
    have hbase := (isBase_baseName v.scalar v.isConst).nonempty
    rw [toList_dataName]
    exact List.append_ne_nil_of_left_ne_nil hbase _
  have hnonempty : ∀ w ∈ v.argumentChars args, w ≠ [] :=
    List.forall_mem_cons.2 ⟨hdata, by simpa using fun a ha => (hargs a ha).1.nonempty⟩
  refine arguments_join (List.forall_mem_cons.2 ⟨isArgument_dataName hrank, ?_⟩)
    fun hlast => hnonempty _ (List.mem_of_mem_getLast? hlast) rfl
  rw [List.forall_mem_map]
  intro arg ha
  obtain ⟨hpart, htight⟩ := hargs arg ha
  exact ⟨hpart.balanced, hpart.encloses, htight.trim⟩

/-- Each argument behind the data type is a part without blanks. -/
theorem isPart_of_mem {v : View} {memory arg : String} (hm : v.space.Names memory)
    (h : arg ∈ v.argumentsWith memory) : IsPart arg.toList ∧ Tight arg.toList := by
  simp only [argumentsWith, List.mem_append, List.mem_singleton, Option.mem_toList] at h
  obtain (hl | rfl) | ht := h
  · revert hl
    cases v.layout <;> rintro ⟨⟩ <;> decide +kernel
  · exact ⟨hm.reads.part, hm.reads.tight⟩
  · revert ht
    cases v.trait <;> rintro ⟨⟩ <;> decide +kernel

/-- **Every spelling of a view type is read as the view:** under any name of the memory space, with
the arguments in any order and any blanks between the tokens. -/
theorem parse_of_tokens {v : View} (hrank : 1 ≤ v.rank ∧ v.rank ≤ maxRank) {memory : String}
    (hm : v.space.Names memory) {args : List String} (hargs : args.Perm (v.argumentsWith memory))
    {t : String} (ht : tokens t = tokens (v.nameWith args)) : parse t = .ok v := by
  have hparts : ∀ arg ∈ args, IsPart arg.toList ∧ Tight arg.toList := fun arg ha =>
    isPart_of_mem hm (hargs.mem_iff.1 ha)
  have hnormal : Spelling.normalize t = v.nameWith args := by
    rw [(normalize_eq_iff _ _).2 ht, normalize_nameWith hrank.1 fun arg ha => (hparts arg ha).2]
  have hinner : Space.between? "Kokkos::View<".toList ['>'] (Spelling.normalize t).toList =
      some ([','].intercalate (v.argumentChars args)) := by
    rw [hnormal, toList_nameWith]
    exact Space.between?_append ..
  have harguments : arguments ([','].intercalate (v.argumentChars args)) =
      v.dataName.toList :: args.map String.toList := arguments_argumentChars hrank.1 hparts
  have hlength : v.dataName.toList.length - (baseName v.scalar v.isConst).length = v.rank := by
    rw [toList_dataName, List.length_append, List.length_replicate, Nat.add_sub_cancel_left]
  have hsettings := (foldlM_perm hm hargs _).trans (foldlM_argumentsWith hm)
  simp only [parse, hinner, harguments, dropEndWhile_dataName, hlength, if_pos hrank,
    ofData?_baseName, Option.bind_some, hsettings]

theorem rank_of_ofData? {rank : Nat} {base : List Char} {v : View}
    (h : ofData? rank base = some v) : v.rank = rank := by
  dsimp only [ofData?] at h
  obtain ⟨scalar, -, rfl⟩ := Option.map_eq_some_iff.1 h
  rfl

/-- The arguments behind the data type leave the rank as it is. -/
theorem rank_of_foldlM {args : List (List Char)} {u v : View}
    (h : args.foldlM withArgument? u = some v) : v.rank = u.rank := by
  induction args generalizing u with
  | nil => cases h; rfl
  | cons arg args ih =>
    rw [List.foldlM_cons] at h
    obtain ⟨w, hw, h⟩ := Option.bind_eq_some_iff.1 h
    rw [ih h]
    unfold withArgument? at hw
    repeat' split at hw
    all_goals cases hw
    all_goals rfl

/-- What is read as a view has a rank that can be written. -/
theorem rank_of_parse {s : String} {v : View} (h : parse s = .ok v) :
    1 ≤ v.rank ∧ v.rank ≤ maxRank := by
  unfold parse at h
  split at h
  · cases h
  · split at h
    · cases h
    · dsimp only at h
      split at h
      case isFalse => cases h
      case isTrue hrank =>
        split at h
        case h_2 => cases h
        case h_1 heq =>
          cases h
          obtain ⟨u, hu, hv⟩ := Option.bind_eq_some_iff.1 heq
          rw [rank_of_foldlM hv, rank_of_ofData? hu]
          exact hrank

/-- **Writing and reading a view type agree over all spellings.** What is read as a view is
written in a spelling that is read as the same view. And whoever spells a view of rank 1 to 7 may
write the arguments behind the data type in any order, put blanks wherever they leave the tokens
alone, and name the memory space itself or wrap it in devices. -/
theorem spellings_agree :
    (∀ (s : String) (v : View), parse s = .ok v → ∃ t, v.spelling = .ok t ∧ parse t = .ok v) ∧
    ∀ v : View, 1 ≤ v.rank ∧ v.rank ≤ maxRank →
      v.spelling = .ok (v.nameWith (v.argumentsWith v.space.cppName)) ∧
      ∀ (memory : String) (args : List String) (t : String), v.space.Names memory →
        args.Perm (v.argumentsWith memory) → tokens t = tokens (v.nameWith args) →
        parse t = .ok v := by
  refine ⟨fun s v hs => ?_, fun v hrank => ⟨spelling_eq hrank, ?_⟩⟩
  · have hrank := rank_of_parse hs
    have hread := parse_of_tokens hrank .plain (.refl (v.argumentsWith v.space.cppName)) (.refl _)
    exact ⟨_, spelling_eq hrank, hread⟩
  · intro memory args t hm hargs ht
    exact parse_of_tokens hrank hm hargs ht

/-- A view with its memory space in a device, in front of the layout. -/
theorem spellings_agree_device :
    parse "Kokkos::View<float const*, Kokkos::Device<A<1,2>,Kokkos::HIPSpace> ,Kokkos::LayoutLeft>" =
      .ok ⟨.float, 1, true, .left, .hip, .default⟩ ∧
    ∃ t, spelling ⟨.float, 1, true, .left, .hip, .default⟩ = .ok t ∧
      parse t = .ok ⟨.float, 1, true, .left, .hip, .default⟩ := by
  suffices hread : parse _ = .ok _ from ⟨hread, spellings_agree.1 _ _ hread⟩
  have hdevice := Space.Names.device "A<1,2>" (by decide) (by decide) (by decide) (by decide)
    (@Space.Names.plain .hip)
  refine (spellings_agree.2 ⟨.float, 1, true, .left, .hip, .default⟩ (by decide)).2 _
    ["Kokkos::Device<A<1,2>,Kokkos::HIPSpace>", "Kokkos::LayoutLeft"] _ hdevice (by decide) ?_
  rw [tokens, tokens, toList_nameWith, String.toList_ofList]
  decide +kernel

end View
end Bindery
