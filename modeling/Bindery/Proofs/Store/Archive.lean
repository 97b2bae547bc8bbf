/-
# An index file is read as it was written

A written index has its texts first, then the records that refer to them, then the root. Reading
goes the other way: each part is found where the part behind it says (`Archive.At`). As long as
the file is so small that all lengths and offsets fit into their fields (`Archive.Fits`), an index
is read back as it was written (`Archive.read?_write`).

| read | at | because |
| --- | --- | --- |
| root | the last 8 bytes | it is written last |
| records | the root less 28 bytes for each | the root holds this offset |
| short texts | their fields | no byte of a text is `FF` |
| long texts | behind those read before | the fields hold their offsets |

No text starts like a field for a long text, so the two kinds of fields are told apart.
-/

import Bindery.Proofs.Text.Utf8
import Bindery.Store.Archive

namespace Bindery
namespace Archive

/-! ### Bytes at a place -/

/-- Bytes stand at a place. -/
def At (bytes : Array UInt8) (place : Nat) (bs : List UInt8) : Prop :=
  ∃ pre post, bytes.toList = pre ++ bs ++ post ∧ pre.length = place

namespace At

variable {bytes : Array UInt8} {place : Nat} {bs cs : List UInt8}

theorem left (h : At bytes place (bs ++ cs)) : At bytes place bs := by
  obtain ⟨pre, post, hbytes, hplace⟩ := h
  exact ⟨pre, cs ++ post, by rw [hbytes]; simp only [List.append_assoc], hplace⟩

theorem right (h : At bytes place (bs ++ cs)) : At bytes (place + bs.length) cs := by
  obtain ⟨pre, post, hbytes, rfl⟩ := h
  exact ⟨pre ++ bs, post, by rw [hbytes]; simp only [List.append_assoc], List.length_append⟩

theorem slice_eq (h : At bytes place bs) : slice bytes place bs.length = bs := by
  obtain ⟨pre, post, hbytes, rfl⟩ := h
  rw [slice, Array.toList_extract, hbytes]
  simp [List.extract_eq_take_drop, List.append_assoc]

theorem getD_eq (h : At bytes place bs) {i : Nat} (hi : i < bs.length) :
    bytes.getD (place + i) 0 = bs.getD i 0 := by
  obtain ⟨pre, post, hbytes, rfl⟩ := h
  rw [Array.getD_eq_getD_getElem?, ← Array.getElem?_toList, hbytes, List.append_assoc,
    List.getElem?_append_right (Nat.le_add_right ..), Nat.add_sub_cancel_left,
    List.getElem?_append_left hi, List.getD_eq_getElem?_getD]

end At

/-! ### Numbers -/

theorem foldl_range_four (f : Nat → Nat → Nat) :
    (List.range 4).foldl f 0 = f (f (f (f 0 0) 1) 2) 3 := rfl

/-- A word is read from its bytes. The powers are rewritten one by one: comparing the two sides by
computation would count up to them. -/
theorem wordAt_eq (bytes : Array UInt8) (place : Nat) : wordAt bytes place =
    0 + (bytes.getD (place + 0) 0).toNat * 1 + (bytes.getD (place + 1) 0).toNat * 256 +
      (bytes.getD (place + 2) 0).toNat * 65536 + (bytes.getD (place + 3) 0).toNat * 16777216 := by
  have h₀ : Nat.pow 256 0 = 1 := rfl
  have h₁ : Nat.pow 256 1 = 256 := rfl
  have h₂ : Nat.pow 256 2 = 65536 := rfl
  have h₃ : Nat.pow 256 3 = 16777216 := rfl
  rw [wordAt, foldl_range_four, h₀, h₁, h₂, h₃]

theorem wordAt_littleEndian {bytes : Array UInt8} {place n : Nat}
    (h : At bytes place (littleEndian 4 n)) (hn : n < wordCount) : wordAt bytes place = n := by
  have hbyte : ∀ i, i < 4 → (bytes.getD (place + i) 0).toNat = n / Nat.pow 256 i % 256 := by
    intro i hi
    rw [h.getD_eq (by simpa [littleEndian] using hi)]
    simp [littleEndian, hi]
  have h₀ : (bytes.getD (place + 0) 0).toNat = n / 1 % 256 := hbyte 0 (by omega)
  have h₁ : (bytes.getD (place + 1) 0).toNat = n / 256 % 256 := hbyte 1 (by omega)
  have h₂ : (bytes.getD (place + 2) 0).toNat = n / 65536 % 256 := hbyte 2 (by omega)
  have h₃ : (bytes.getD (place + 3) 0).toNat = n / 16777216 % 256 := hbyte 3 (by omega)
  have hcount : wordCount = 4294967296 := rfl
  rw [wordAt_eq, h₀, h₁, h₂, h₃]
  omega

@[simp] theorem length_littleEndian (n value : Nat) : (littleEndian n value).length = n := by
  simp [littleEndian]

@[simp] theorem length_signedBytes (value : Int) : (signedBytes value).length = 4 :=
  length_littleEndian ..

theorem signedAt_signedBytes {bytes : Array UInt8} {place : Nat} {value : Int}
    (h : At bytes place (signedBytes value)) (hlow : -0x80000000 ≤ value)
    (hhigh : value < 0x80000000) : signedAt bytes place = value := by
  have hcount : wordCount = 4294967296 := rfl
  have hcast : (wordCount : Int) = 4294967296 := rfl
  have hword := wordAt_littleEndian h (by rw [hcast]; omega)
  simp only [signedAt, hword, hcast]
  split <;> omega

/-! ### Texts -/

@[simp] theorem length_field (place position : Nat) (bs : List UInt8) :
    (field place position bs).length = 8 := by
  unfold field
  split
  · rename_i h
    have hsize : bs.length ≤ 8 := h
    rw [List.length_append, List.length_replicate]
    show bs.length + (8 - bs.length) = 8
    omega
  · simp

/-- What a text adds to the texts outside the records. -/
def stored (bs : List UInt8) : List UInt8 := if bs.length ≤ inlineSize then [] else bs

theorem length_stored (bs : List UInt8) : (stored bs).length = outside bs := by
  unfold stored outside
  split <;> rfl

/-- A short text stands in its field, up to the first `FF`. -/
theorem readText?_short {bytes : Array UInt8} {place position low high : Nat} {s : String}
    (hsize : (Text.encode s).length ≤ inlineSize)
    (hfield : At bytes place (field place position (Text.encode s))) :
    readText? bytes place low high = some (s, low) := by
  have hpad : At bytes place
      (Text.encode s ++ List.replicate (inlineSize - (Text.encode s).length) 0xFF) := by
    rwa [field, if_pos hsize] at hfield
  have hlength : (Text.encode s ++
      List.replicate (inlineSize - (Text.encode s).length) (0xFF : UInt8)).length = inlineSize := by
    rw [List.length_append, List.length_replicate]
    omega
  have hfirst : ¬ (bytes.getD place 0).toNat / 64 = 2 := by
    have h := hpad.getD_eq (i := 0) (by rw [hlength]; decide)
    rw [Nat.add_zero] at h
    rw [h]
    rcases hs : Text.encode s with _ | ⟨b, r⟩
    · simp [inlineSize]
    · exact Text.encode_head hs
  have htake : (slice bytes place inlineSize).takeWhile (· ≠ 0xFF) = Text.encode s := by
    have h := hpad.slice_eq
    rw [hlength] at h
    rw [h, List.takeWhile_append_of_pos (by simpa using Text.encode_ne s)]
    simp
  simp only [readText?, if_neg hfirst, htake, Text.strict?_encode, Option.map_some]

/-- A long text stands where its field says. -/
theorem readText?_long {bytes : Array UInt8} {place position low high : Nat} {s : String}
    (hsize : ¬ (Text.encode s).length ≤ inlineSize)
    (hfield : At bytes place (field place position (Text.encode s)))
    (htext : At bytes position (Text.encode s)) (hlow : low ≤ position)
    (hhigh : position + (Text.encode s).length ≤ high) (hplace : place < 0x40000000)
    (hbound : high < 0x40000000) :
    readText? bytes place low high = some (s, position + (Text.encode s).length) := by
  have hcount : wordCount = 4294967296 := rfl
  rw [field, if_neg hsize] at hfield
  have hword := wordAt_littleEndian hfield.left (by unfold lengthField; omega)
  have hsigned : signedAt bytes (place + 4) = (position : Int) - place :=
    signedAt_signedBytes hfield.right (by omega) (by omega)
  have hfirst : (bytes.getD place 0).toNat / 64 = 2 := by
    have h := hfield.getD_eq (i := 0) (by simp)
    rw [Nat.add_zero] at h
    rw [h]
    simp [littleEndian, lengthField]
    omega
  have hlength : lengthField (Text.encode s).length % 64 +
      lengthField (Text.encode s).length / 256 * 64 = (Text.encode s).length := by
    unfold lengthField
    omega
  have hstart : (place : Int) + ((position : Int) - place) = position := by omega
  simp only [readText?, if_pos hfirst, hword, hsigned, hlength, hstart]
  rw [if_pos ⟨by omega, by omega⟩]
  simp only [Int.toNat_natCast, htext.slice_eq, Text.strict?_encode, Option.map_some]

/-- **A text is read back from its field,** and what is read next may lie behind it. -/
theorem readText?_field {bytes : Array UInt8} {place position low : Nat} (high : Nat) {s : String}
    (hfield : At bytes place (field place position (Text.encode s)))
    (htext : At bytes position (stored (Text.encode s))) (hlow : low ≤ position)
    (hhigh : position + outside (Text.encode s) ≤ high) (hplace : place < 0x40000000)
    (hbound : high < 0x40000000) :
    ∃ low', readText? bytes place low high = some (s, low') ∧
      low' ≤ position + outside (Text.encode s) := by
  by_cases hsize : (Text.encode s).length ≤ inlineSize
  · exact ⟨low, readText?_short hsize hfield, by omega⟩
  · rw [stored, if_neg hsize] at htext
    rw [outside, if_neg hsize] at hhigh ⊢
    exact ⟨_, readText?_long hsize hfield htext hlow hhigh hplace hbound, Nat.le_refl _⟩

/-! ### Records -/

theorem heap_cons (e : IndexEntry) (entries : Index) :
    heap (e :: entries) = stored (Text.encode e.hash) ++ (stored (Text.encode e.signature) ++
      (stored (Text.encode e.returnType) ++ heap entries)) := by
  simp [heap, texts, stored]

theorem outsideAll_eq (e : IndexEntry) :
    outsideAll e = outside (Text.encode e.hash) + outside (Text.encode e.signature) +
      outside (Text.encode e.returnType) := by
  simp [outsideAll, texts]

@[simp] theorem length_record (place position : Nat) (e : IndexEntry) :
    (record place position e).length = recordSize := by
  simp [record, recordSize]

theorem length_records (place position : Nat) (entries : Index) :
    (records place position entries).length = recordSize * entries.length := by
  induction entries generalizing place position with
  | nil => rfl
  | cons e r ih =>
    rw [records, List.length_append, length_record, ih, List.length_cons, Nat.mul_succ,
      Nat.add_comm]

/-- **Records are read back,** each with its texts, which lie in the order of the records. -/
theorem readRecords?_records {bytes : Array UInt8} {place position low high : Nat}
    {entries : Index} (hrecords : At bytes place (records place position entries))
    (hheap : At bytes position (heap entries)) (hlow : low ≤ position)
    (hhigh : position + (heap entries).length ≤ high)
    (hplace : place + recordSize * entries.length < 0x40000000) (hbound : high < 0x40000000) :
    readRecords? bytes high entries.length place low = some entries := by
  induction entries generalizing place position low with
  | nil => rfl
  | cons e r ih =>
    have hsize : recordSize = 28 := rfl
    rw [List.length_cons, hsize] at hplace
    rw [records] at hrecords
    have hrecord := hrecords.left
    have hrest := hrecords.right
    rw [length_record] at hrest
    simp only [record, List.append_assoc] at hrecord
    rw [heap_cons] at hheap hhigh
    simp only [List.length_append, length_stored] at hhigh
    obtain ⟨low₁, hhash, hlow₁⟩ := readText?_field high hrecord.left hheap.left hlow
      (by omega) (by omega) hbound
    have hrecord₁ := hrecord.right
    have hheap₁ := hheap.right
    rw [length_field] at hrecord₁
    rw [length_stored] at hheap₁
    obtain ⟨low₂, hsignature, hlow₂⟩ := readText?_field high hrecord₁.left hheap₁.left
      hlow₁ (by omega) (by omega) hbound
    have hrecord₂ := hrecord₁.right
    have hheap₂ := hheap₁.right
    rw [length_field] at hrecord₂
    rw [length_stored] at hheap₂
    have hkind : bytes.getD (place + 16) 0 = e.kind := hrecord₂.left.getD_eq (i := 0) (by simp)
    have hrecord₃ : At bytes (place + 20) _ := hrecord₂.right
    obtain ⟨low₃, hreturn, hlow₃⟩ := readText?_field high hrecord₃ hheap₂.left hlow₂
      (by omega) (by omega) hbound
    have hheap₃ := hheap₂.right
    rw [length_stored] at hheap₃
    rw [outsideAll_eq] at hrest
    have hentries : readRecords? bytes high r.length (place + recordSize) low₃ = some r :=
      ih hrest (by simpa only [Nat.add_assoc] using hheap₃) (by omega) (by omega)
        (by rw [hsize]; omega)
    simp only [List.length_cons, readRecords?, hhash, hsignature, hreturn, hkind, hentries,
      Option.bind_eq_bind, Option.bind_some]

/-! ### Files -/

/-- The texts outside the records, up to a multiple of 4. -/
def padded (entries : Index) : List UInt8 :=
  heap entries ++ List.replicate ((4 - (heap entries).length % 4) % 4) 0

theorem write_eq (entries : Index) : write entries =
    padded entries ++ (records (padded entries).length 0 entries ++
      (signedBytes (-((recordSize * entries.length : Nat) : Int)) ++
        littleEndian 4 entries.length)) := by
  simp only [write, padded, List.append_assoc]

theorem length_padded_mod (entries : Index) : (padded entries).length % 4 = 0 := by
  rw [padded, List.length_append, List.length_replicate]
  omega

theorem length_write (entries : Index) :
    (write entries).length = (padded entries).length + recordSize * entries.length + rootSize := by
  simp only [write_eq, List.length_append, length_records, length_signedBytes,
    length_littleEndian, rootSize]
  omega

/-- All lengths and offsets in the file of an index fit into their fields. -/
def Fits (entries : Index) : Prop := (write entries).length < 0x40000000

/-- **A written index is read back.** -/
theorem read?_write {entries : Index} (h : Fits entries) :
    read? (write entries) = some entries := by
  have hrecord : recordSize = 28 := rfl
  have hrootSize : rootSize = 8 := rfl
  have hcount : wordCount = 4294967296 := rfl
  have hlength := length_write entries
  have hmod := length_padded_mod entries
  rw [Fits, hlength, hrecord, hrootSize] at h
  -- The parts of the file, each at its place.
  have hfile : At (write entries).toArray 0 (write entries) := ⟨[], [], by simp, rfl⟩
  generalize hbytes : (write entries).toArray = bytes at hfile
  have hsize : bytes.size = (padded entries).length + 28 * entries.length + 8 := by
    rw [← hbytes, List.size_toArray, hlength, hrecord, hrootSize]
  rw [write_eq, hrecord] at hfile
  have hheap : At bytes 0 (heap entries) := hfile.left.left
  have htail := hfile.right
  rw [Nat.zero_add] at htail
  have hroot := htail.right
  rw [length_records, hrecord] at hroot
  have hsigned := signedAt_signedBytes hroot.left (by omega) (by omega)
  have hword := wordAt_littleEndian hroot.right (by omega)
  rw [length_signedBytes] at hword
  have hentries : readRecords? bytes (padded entries).length entries.length
      (padded entries).length 0 = some entries :=
    readRecords?_records htail.left hheap (Nat.zero_le 0) (by simp [padded])
      (by rw [hrecord]; omega) (by omega)
  have hplace : bytes.size - rootSize = (padded entries).length + 28 * entries.length := by
    rw [hsize, hrootSize, Nat.add_sub_cancel]
  have hstart : (((padded entries).length + 28 * entries.length : Nat) : Int) +
      -((28 * entries.length : Nat) : Int) = (padded entries).length := by omega
  simp only [read?, hbytes, hplace, hword, hsigned, hstart]
  rw [if_neg (by omega), if_pos ⟨by omega, by omega, by rw [hrecord]; omega⟩, Int.toNat_natCast]
  exact hentries

end Archive
end Bindery
