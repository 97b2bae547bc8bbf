/-
# What lies in a directory itself

A file of a directory has a name without `/` (`Path.IsName`), and its path is the name behind a
fixed start (`Path.join_eq`). Nothing lies below such a path because of other files of the
directory (`Files.within?_join`). So work that leaves all else alone (`Files.SameBeyond`) makes no
directory where a file of the directory is, or is to be, and whether a file can be saved stays as
it was (`Files.SameBeyond.blocked`).

A save either finds a directory in its way or puts all its bytes at the path
(`Files.get?_save_self`), and what was replaced is there (`Files.get?_of_replace_self`).
-/

import Bindery.Proofs.Outcome
import Bindery.Proofs.Store.Attempt

namespace Bindery

/-- The pieces of a text have none of the characters at which it is cut. -/
theorem Text.not_of_mem_fields {p : Char → Bool} {cs part : List Char} {c : Char}
    (hpart : part ∈ fields p cs) (hc : c ∈ part) : p c = false := by
  induction cs generalizing part with
  | nil =>
    obtain rfl := List.mem_singleton.1 hpart
    exact absurd hc List.not_mem_nil
  | cons d cs ih =>
    rw [fields] at hpart
    split at hpart
    · rcases List.mem_cons.1 hpart with rfl | hpart
      · exact absurd hc List.not_mem_nil
      · exact ih hpart hc
    · rename_i hd
      rw [Bool.not_eq_true] at hd
      cases hfields : fields p cs with
      | nil =>
        rw [hfields] at hpart
        obtain rfl := List.mem_singleton.1 hpart
        obtain rfl := List.mem_singleton.1 hc
        exact hd
      | cons first rest =>
        rw [hfields] at hpart ih
        rcases List.mem_cons.1 hpart with rfl | hpart
        · rcases List.mem_cons.1 hc with rfl | hc
          · exact hd
          · exact ih List.mem_cons_self hc
        · exact ih (List.mem_cons_of_mem first hpart) hc

namespace Path

/-- The name of a file in a directory. -/
structure IsName (name : String) : Prop where
  nonempty : name.toList ≠ []
  plain : '/' ∉ name.toList

/-- What the paths of the files in a directory start with. -/
def lead (dir : String) : String :=
  if dir = "" then "" else if dir.toList.getLast? = some '/' then dir else dir ++ "/"

/-- The file at a path lies in a directory itself. -/
def Holds (dir path : String) : Prop := ∃ name, IsName name ∧ path = join dir name

theorem IsName.append {name ending : String} (h : IsName name) (hending : '/' ∉ ending.toList) :
    IsName (name ++ ending) := by
  refine ⟨?_, ?_⟩ <;> rw [String.toList_append]
  · exact List.append_ne_nil_of_left_ne_nil h.nonempty _
  · rw [List.mem_append]
    exact not_or.2 ⟨h.plain, hending⟩

theorem join_eq {dir name : String} (h : IsName name) : join dir name = lead dir ++ name := by
  have hrelative : isAbsolute name = false := by
    unfold isAbsolute
    rcases hname : name.toList with _ | ⟨c, r⟩
    · rfl
    · have hplain := h.plain
      rw [hname] at hplain
      have hc : c ≠ '/' := fun hc => hplain (hc ▸ List.mem_cons_self)
      simpa using hc
  unfold join lead
  rw [hrelative, Bool.false_or]
  by_cases hdir : dir = ""
  · simp [hdir]
  · rw [if_neg (by simpa using hdir), if_neg hdir]
    split <;> rfl

theorem join_inj {dir name other : String} (h : IsName name) (h' : IsName other)
    (heq : join dir name = join dir other) : name = other := by
  rw [join_eq h, join_eq h', ← String.toList_inj, String.toList_append, String.toList_append] at heq
  exact String.toList_inj.1 (List.append_cancel_left heq)

theorem holds_join {dir name : String} (h : IsName name) : Holds dir (join dir name) :=
  ⟨name, h, rfl⟩

theorem staging_join {dir name : String} (h : IsName name) :
    Files.staging (join dir name) = join dir (name ++ ".tmp") := by
  rw [join_eq h, join_eq (h.append (by decide)), Files.staging, String.append_assoc]

theorem holds_staging {dir name : String} (h : IsName name) :
    Holds dir (Files.staging (join dir name)) :=
  ⟨_, h.append (by decide), staging_join h⟩

/-- The file name of a path is a name in its directory. -/
theorem isName_of_fileName? {path name : String} (h : fileName? path = some name) :
    IsName name := by
  unfold fileName? at h
  cases hback : partsBack (split path.toList).2 with
  | nil =>
    rw [hback] at h
    cases h
  | cons last back =>
    have hhead : (partsBack (split path.toList).2).head? = some last := by rw [hback]; rfl
    have hidle : isIdle last = false := by
      have hnot := List.head?_dropWhile_not isIdle
        (Text.fields isSeparator (split path.toList).2).reverse
      rw [partsBack] at hhead
      simpa [hhead] using hnot
    have hmem : last ∈ Text.fields isSeparator (split path.toList).2 := by
      refine List.mem_reverse.1 ((List.dropWhile_suffix isIdle).subset ?_)
      exact List.mem_of_mem_head? hhead
    rw [hback] at h
    simp only at h
    split at h
    · cases h
    · obtain rfl := Option.some.inj h
      refine ⟨?_, fun hslash => ?_⟩ <;> simp only [String.toList_ofList] at *
      · rintro rfl
        exact absurd hidle (by decide)
      · exact absurd (Text.not_of_mem_fields hmem hslash) (by decide)

end Path

namespace Files

variable {L : Type}

/-- What is replaced is there. -/
theorem get?_of_replace_self {files replaced : Files L} {path : String} {content : List UInt8}
    (h : files.replace path content = .ok replaced) :
    replaced.get? path = some (.bytes content) := by
  obtain ⟨staged, hstage, hpublish⟩ := exists_of_bind_eq_ok h
  have hstaged : staged.get? (staging path) = some (.bytes content) := by
    unfold stage Files.write at hstage
    split at hstage
    · exact absurd hstage nofun
    · obtain rfl := Except.ok.inj hstage
      rw [get?_put, if_pos rfl]
  unfold publish rename at hpublish
  rw [hstaged] at hpublish
  simp only at hpublish
  split at hpublish
  · exact absurd hpublish nofun
  · obtain rfl := Except.ok.inj hpublish
    rw [get?_put, if_pos rfl]

/-- Replacing touches the path and its staging name. -/
theorem get?_of_replace {files replaced : Files L} {path other : String} {content : List UInt8}
    (h : files.replace path content = .ok replaced) (hpath : other ≠ path)
    (hstaging : other ≠ staging path) : replaced.get? other = files.get? other := by
  rw [← save_of_replace h]
  exact get?_save hpath hstaging

/-- Writing touches the path. -/
theorem get?_of_write {files written : Files L} {path other : String} {content : List UInt8}
    (h : files.write path content = .ok written) (hpath : other ≠ path) :
    written.get? other = files.get? other := by
  unfold write at h
  split at h
  · exact absurd h nofun
  · obtain rfl := Except.ok.inj h
    rw [get?_put, if_neg hpath.symm]

/-- Nothing lies below a file of a directory. -/
theorem within?_join {dir path name : String} (hpath : Path.Holds dir path)
    (h : Path.IsName name) : within? (Path.join dir name) path = none := by
  obtain ⟨other, hother, rfl⟩ := hpath
  have hroot : Path.join dir name ≠ "/" := by
    intro heq
    obtain ⟨c, hc⟩ := List.exists_mem_of_ne_nil _ h.nonempty
    have hroot : c ∈ (Path.join dir name).toList := by
      rw [Path.join_eq h, String.toList_append]
      exact List.mem_append_right _ hc
    rw [heq] at hroot
    have hslash : c = '/' := List.mem_singleton.1 hroot
    exact h.plain (hslash ▸ hc)
  have hbelow : (below (Path.join dir name)).toList =
      (Path.lead dir).toList ++ (name.toList ++ ['/']) := by
    rw [below, if_neg hroot, Path.join_eq h]
    simp [String.toList_append]
  rw [within?, Text.afterStart?, if_neg]
  · rfl
  · rw [hbelow, Path.join_eq hother, String.toList_append, List.isPrefixOf_iff_prefix,
      List.prefix_append_right_inj]
    rintro ⟨post, heq⟩
    refine hother.plain ?_
    rw [← heq]
    simp

theorem isDirectory_iff {files : Files L} {path : String} :
    files.isDirectory path = true ↔ path = "/" ∨ path ∈ files.bare ∨
      ∃ p, (within? path p).isSome ∧ (files.isFile p = true ∨ p ∈ files.bare) := by
  have hkey : ∀ p, files.isFile p = true ↔ p ∈ files.entries.map (·.1) := by
    intro p
    simp [isFile, get?, List.mem_map]
  simp only [isDirectory, Bool.or_eq_true, decide_eq_true_eq, List.contains_iff_mem,
    List.any_eq_true, List.mem_append, ← hkey]
  refine ⟨?_, ?_⟩
  · rintro ((h | h) | ⟨p, hp, h⟩)
    · exact .inl h
    · exact .inr (.inl h)
    · exact .inr (.inr ⟨p, h, hp⟩)
  · rintro (h | h | ⟨p, h, hp⟩)
    · exact .inl (.inl h)
    · exact .inl (.inr h)
    · exact .inr ⟨p, hp, h⟩

/-- Nothing is different but files of a directory. -/
structure SameBeyond (dir : String) (files files' : Files L) : Prop where
  get? : ∀ path, ¬ Path.Holds dir path → files'.get? path = files.get? path
  bare : files'.bare = files.bare

namespace SameBeyond

variable {dir name path : String} {files files' files'' : Files L}

theorem refl (dir : String) (files : Files L) : SameBeyond dir files files := ⟨fun _ _ => rfl, rfl⟩

theorem trans (h : SameBeyond dir files files') (h' : SameBeyond dir files' files'') :
    SameBeyond dir files files'' :=
  ⟨fun path hpath => (h'.get? path hpath).trans (h.get? path hpath), h'.bare.trans h.bare⟩

/-- No file of a directory becomes a directory, and none stops being one. -/
theorem isDirectory (h : SameBeyond dir files files') (hname : Path.IsName name) :
    files'.isDirectory (Path.join dir name) = files.isDirectory (Path.join dir name) := by
  rw [Bool.eq_iff_iff, isDirectory_iff, isDirectory_iff, h.bare]
  have hfile : ∀ p, (within? (Path.join dir name) p).isSome →
      (files'.isFile p = true ↔ files.isFile p = true) := by
    intro p hp
    have hbeyond : ¬ Path.Holds dir p := by
      intro hholds
      rw [within?_join hholds hname] at hp
      exact absurd hp nofun
    rw [isFile, isFile, h.get? p hbeyond]
  refine or_congr_right (or_congr_right (exists_congr fun p => and_congr_right fun hp => ?_))
  rw [hfile p hp]

theorem put (hpath : Path.Holds dir path) (file : File L) :
    SameBeyond dir files (files.put path file) := by
  refine ⟨fun other hother => ?_, rfl⟩
  rw [get?_put, if_neg]
  rintro rfl
  exact hother hpath

theorem remove (hpath : Path.Holds dir path) : SameBeyond dir files (files.remove path) := by
  refine ⟨fun other hother => ?_, rfl⟩
  rw [get?_remove, if_neg]
  rintro rfl
  exact hother hpath

theorem write (hpath : Path.Holds dir path) {content : List UInt8}
    (h : files.write path content = .ok files') : SameBeyond dir files files' := by
  unfold Files.write at h
  split at h
  · exact absurd h nofun
  · obtain rfl := Except.ok.inj h
    exact put hpath _

theorem save (hname : Path.IsName name) (content : List UInt8) :
    SameBeyond dir files (files.save (Path.join dir name) content) := by
  unfold Files.save
  split
  · exact refl dir files
  · rename_i staged hstage
    have hstaged : SameBeyond dir files staged := write (Path.holds_staging hname) hstage
    split
    · rename_i published hpublish
      refine hstaged.trans ?_
      unfold publish rename at hpublish
      split at hpublish
      · exact absurd hpublish nofun
      · split at hpublish
        · exact absurd hpublish nofun
        · obtain rfl := Except.ok.inj hpublish
          exact (remove (Path.holds_staging hname)).trans (put (Path.holds_join hname) _)
    · exact hstaged

end SameBeyond

/-- A directory lies in the way of what is saved at a path. -/
def blocked (files : Files L) (path : String) : Bool :=
  files.isDirectory (staging path) || files.isDirectory path

theorem SameBeyond.blocked {dir name : String} {files files' : Files L}
    (h : SameBeyond dir files files') (hname : Path.IsName name) :
    files'.blocked (Path.join dir name) = files.blocked (Path.join dir name) := by
  rw [Files.blocked, Files.blocked, Path.staging_join hname, h.isDirectory hname,
    h.isDirectory (hname.append (by decide))]

theorem staging_ne_self (path : String) : staging path ≠ path := by
  intro heq
  have hlist := congrArg (·.toList.length) heq
  simp [staging, String.toList_append] at hlist

/-- **A save succeeds as a whole or leaves the file as it was.** -/
theorem get?_save_self {dir name : String} (files : Files L) (hname : Path.IsName name)
    (content : List UInt8) :
    (files.save (Path.join dir name) content).get? (Path.join dir name) =
      if files.blocked (Path.join dir name) then files.get? (Path.join dir name)
      else some (.bytes content) := by
  have hstaging := staging_ne_self (Path.join dir name)
  unfold save stage Files.write
  by_cases hstage : files.isDirectory (staging (Path.join dir name)) = true
  · rw [if_pos hstage, Files.blocked, hstage]
    rfl
  · have hstaged : SameBeyond dir files
        (files.put (staging (Path.join dir name)) (.bytes content)) :=
      .put (Path.holds_staging hname) _
    rw [if_neg hstage, Files.blocked, Bool.eq_false_iff.2 hstage, Bool.false_or]
    simp only [publish, rename, get?_put, if_true, hstaged.isDirectory hname]
    by_cases hdir : files.isDirectory (Path.join dir name) = true
    · simp only [if_pos hdir, get?_put, if_neg hstaging]
    · simp only [if_neg hdir, get?_put, if_true]

end Files
end Bindery
