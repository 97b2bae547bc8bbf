/-
# What is written as text is read as text

The bytes of a text are those of its characters, and each character is read back whole
(`Text.decode_encodeChar`). By the value `v` of the character:

| `v` up to | first byte | further bytes |
| --- | --- | --- |
| `7F` | `v` | |
| `7FF` | `C0 + v / 64` | 1 |
| `FFFF` | `E0 + v / 4096` | 2 |
| `10FFFF` | `F0 + v / 262144` | 3 |

The first byte shows how many follow and between what bounds the second lies
(`Text.decode_sequence`). A character keeps these bounds because it has no shorter form and is no
surrogate. So a text is read back as it was written (`Text.strict?_encode`). No byte but that of NUL
is zero, so a text without NUL is also read back where texts end with a zero (`Text.ofC_encode`).
-/

import Bindery.Text.Utf8

namespace Bindery
namespace Text

/-! ### Bytes of a text -/

theorem toList_loop (bs : ByteArray) (i : Nat) (read : List UInt8) :
    ByteArray.toList.loop bs i read = read.reverse ++ bs.data.toList.drop i := by
  fun_induction ByteArray.toList.loop bs i read with
  | case1 i read h ih =>
    have hi : i < bs.data.toList.length := by simpa using h
    rw [ih, List.drop_eq_getElem_cons hi]
    simp [ByteArray.get!, h]
  | case2 i read h =>
    have hi : bs.data.toList.length ≤ i := by simpa using Nat.le_of_not_lt h
    rw [List.drop_eq_nil_of_le hi, List.append_nil]

/-- The bytes of a text are those of its characters. -/
theorem encode_eq_flatMap (s : String) : encode s = s.toList.flatMap String.utf8EncodeChar := by
  have hbytes : s.toUTF8 = (s.toList.flatMap String.utf8EncodeChar).toByteArray :=
    String.utf8Encode_toList.symm
  rw [encode, hbytes, ByteArray.toList, toList_loop, List.toList_data_toByteArray]
  rfl

/-! ### One sequence of bytes -/

/-- A first byte and as many good further bytes as it asks for are one character. -/
theorem decode_sequence {b low high : UInt8} (more : List UInt8) {r : List UInt8}
    (hshape : shape? b = some (more.length, low, high))
    (hmore : continuation more.length low high (more ++ r) = more) :
    decode (b :: (more ++ r)) = some (assemble b more) :: decode r := by
  rw [decode, hshape]
  simp only [hmore, if_true, List.drop_left]

@[simp] theorem continuation_zero (low high : UInt8) (r : List UInt8) :
    continuation 0 low high r = [] := by
  unfold continuation
  rfl

theorem continuation_cons {low high b : UInt8} {n : Nat} {r : List UInt8}
    (hlow : low.toNat ≤ b.toNat) (hhigh : b.toNat ≤ high.toNat) :
    continuation (n + 1) low high (b :: r) = b :: continuation n 0x80 0xBF r := by
  rw [continuation, if_pos ⟨UInt8.le_iff_toNat_le.2 hlow, UInt8.le_iff_toNat_le.2 hhigh⟩]

/-- The byte that carries the last six bits of a number. -/
def carry (v : Nat) : UInt8 := UInt8.ofNat (v % 64 + 128)

theorem toNat_carry (v : Nat) : (carry v).toNat = v % 64 + 128 := by
  rw [carry, UInt8.toNat_ofNat']
  omega

/-- Bytes that carry six bits each are good further bytes. -/
theorem continuation_carry (vs : List Nat) (r : List UInt8) :
    continuation (vs.map carry).length 0x80 0xBF (vs.map carry ++ r) = vs.map carry := by
  induction vs with
  | nil => exact continuation_zero ..
  | cons v vs ih =>
    refine (continuation_cons (r := vs.map carry ++ r) ?_ ?_).trans (congrArg (carry v :: ·) ih) <;>
      rw [toNat_carry]
    · exact Nat.le_add_left _ _
    · show v % 64 + 128 ≤ 191
      omega

theorem shape?_one {b : UInt8} (hhigh : b.toNat < 0x80) : shape? b = some (0, 0, 0) := by
  simp only [shape?, UInt8.lt_iff_toNat_lt, UInt8.reduceToNat]
  rw [if_pos hhigh]

theorem shape?_two {b : UInt8} (hlow : 0xC2 ≤ b.toNat) (hhigh : b.toNat < 0xE0) :
    shape? b = some (1, 0x80, 0xBF) := by
  simp only [shape?, UInt8.lt_iff_toNat_lt, UInt8.reduceToNat]
  rw [if_neg (by omega), if_neg (by omega), if_pos hhigh]

theorem shape?_three {b : UInt8} (hlow : 0xE0 ≤ b.toNat) (hhigh : b.toNat < 0xF0) :
    shape? b = some (2, if b.toNat = 0xE0 then 0xA0 else 0x80,
      if b.toNat = 0xED then 0x9F else 0xBF) := by
  simp only [shape?, UInt8.lt_iff_toNat_lt, ← UInt8.toNat_inj, UInt8.reduceToNat]
  rw [if_neg (by omega), if_neg (by omega), if_neg (by omega)]
  by_cases h : b.toNat = 0xE0
  · rw [if_pos h, if_pos h, if_neg (by omega)]
  · rw [if_neg h, if_neg h, if_pos hhigh]
    split <;> rfl

theorem shape?_four {b : UInt8} (hlow : 0xF0 ≤ b.toNat) (hhigh : b.toNat < 0xF5) :
    shape? b = some (3, if b.toNat = 0xF0 then 0x90 else 0x80,
      if b.toNat = 0xF4 then 0x8F else 0xBF) := by
  simp only [shape?, UInt8.lt_iff_toNat_lt, ← UInt8.toNat_inj, UInt8.reduceToNat]
  rw [if_neg (by omega), if_neg (by omega), if_neg (by omega), if_neg (by omega),
    if_neg (by omega), if_neg (by omega)]
  by_cases h : b.toNat = 0xF0
  · rw [if_pos h, if_pos h, if_neg (by omega)]
  · rw [if_neg h, if_neg h]
    by_cases h' : b.toNat < 0xF4
    · rw [if_pos h', if_neg (by omega)]
    · rw [if_neg h', if_pos (by omega), if_pos (by omega)]

/-! ### One character -/

/-- A first byte has a mark of the length in front of its bits. -/
theorem toNat_lead (n mark : Nat) (h : n + mark < 256) :
    (UInt8.ofNat (n + mark)).toNat = n + mark := by
  rw [UInt8.toNat_ofNat']
  omega

theorem decode_one {v : Nat} (r : List UInt8) (hv : v < 0x80) :
    decode (UInt8.ofNat v :: r) = some (Char.ofNat v) :: decode r := by
  have hb : (UInt8.ofNat v).toNat = v := toNat_lead v 0 (by omega)
  have hassemble : assemble (UInt8.ofNat v) [] = Char.ofNat v := congrArg Char.ofNat hb
  rw [← hassemble]
  exact decode_sequence [] (shape?_one (by omega)) (continuation_zero ..)

theorem decode_two {v : Nat} (r : List UInt8) (hlow : 0x80 ≤ v) (hv : v < 0x800) :
    decode (UInt8.ofNat (v / 64 + 192) :: carry v :: r) = some (Char.ofNat v) :: decode r := by
  have hb := toNat_lead (v / 64) 192 (by omega)
  have hassemble : assemble (UInt8.ofNat (v / 64 + 192)) [carry v] = Char.ofNat v := by
    simp only [assemble, List.length_singleton, List.foldl_cons, List.foldl_nil, hb, toNat_carry]
    congr 1
    omega
  rw [← hassemble]
  refine decode_sequence [carry v] (shape?_two (by omega) (by omega)) ?_
  exact continuation_carry [v] r

/-- The second byte shows that three are needed and that they stand for no surrogate. -/
theorem decode_three {v : Nat} (r : List UInt8) (hlow : 0x800 ≤ v) (hv : v < 0x10000)
    (hvalid : v < 0xD800 ∨ 0xDFFF < v) :
    decode (UInt8.ofNat (v / 4096 + 224) :: carry (v / 64) :: carry v :: r) =
      some (Char.ofNat v) :: decode r := by
  have hb := toNat_lead (v / 4096) 224 (by omega)
  have hassemble :
      assemble (UInt8.ofNat (v / 4096 + 224)) [carry (v / 64), carry v] = Char.ofNat v := by
    simp only [assemble, List.length_cons, List.length_nil, List.foldl_cons, List.foldl_nil, hb,
      toNat_carry]
    congr 1
    omega
  rw [← hassemble]
  refine decode_sequence [carry (v / 64), carry v]
    (shape?_three (by omega) (by omega)) ?_
  have hsecond := toNat_carry (v / 64)
  refine (continuation_cons (r := carry v :: r) ?_ ?_).trans ?_
  · split <;> simp only [UInt8.reduceToNat] <;> omega
  · split <;> simp only [UInt8.reduceToNat] <;> omega
  · exact congrArg (carry (v / 64) :: ·) (continuation_carry [v] r)

/-- The second byte shows that four are needed and that they stand for no greater number. -/
theorem decode_four {v : Nat} (r : List UInt8) (hlow : 0x10000 ≤ v) (hv : v < 0x110000) :
    decode (UInt8.ofNat (v / 262144 + 240) :: carry (v / 4096) :: carry (v / 64) :: carry v :: r) =
      some (Char.ofNat v) :: decode r := by
  have hb := toNat_lead (v / 262144) 240 (by omega)
  have hassemble : assemble (UInt8.ofNat (v / 262144 + 240))
      [carry (v / 4096), carry (v / 64), carry v] = Char.ofNat v := by
    simp only [assemble, List.length_cons, List.length_nil, List.foldl_cons, List.foldl_nil, hb,
      toNat_carry]
    congr 1
    omega
  rw [← hassemble]
  refine decode_sequence [carry (v / 4096), carry (v / 64), carry v]
    (shape?_four (by omega) (by omega)) ?_
  have hsecond := toNat_carry (v / 4096)
  refine (continuation_cons (r := carry (v / 64) :: carry v :: r) ?_ ?_).trans ?_
  · split <;> simp only [UInt8.reduceToNat] <;> omega
  · split <;> simp only [UInt8.reduceToNat] <;> omega
  · exact congrArg (carry (v / 4096) :: ·) (continuation_carry [v / 64, v] r)

/-- The bytes of a character, by its value. -/
theorem encodeChar_cases (c : Char) :
    (c.toNat < 0x80 ∧ String.utf8EncodeChar c = [UInt8.ofNat c.toNat]) ∨
    (0x80 ≤ c.toNat ∧ c.toNat < 0x800 ∧
      String.utf8EncodeChar c = [UInt8.ofNat (c.toNat / 64 + 192), carry c.toNat]) ∨
    (0x800 ≤ c.toNat ∧ c.toNat < 0x10000 ∧ (c.toNat < 0xD800 ∨ 0xDFFF < c.toNat) ∧
      String.utf8EncodeChar c =
        [UInt8.ofNat (c.toNat / 4096 + 224), carry (c.toNat / 64), carry c.toNat]) ∨
    (0x10000 ≤ c.toNat ∧ c.toNat < 0x110000 ∧
      String.utf8EncodeChar c =
        [UInt8.ofNat (c.toNat / 262144 + 240), carry (c.toNat / 4096), carry (c.toNat / 64),
          carry c.toNat]) := by
  have hvalid : c.toNat < 0xD800 ∨ 0xDFFF < c.toNat ∧ c.toNat < 0x110000 := c.valid
  have hbytes : String.utf8EncodeChar c =
      if c.toNat ≤ 127 then [UInt8.ofNat c.toNat]
      else if c.toNat ≤ 2047 then [UInt8.ofNat (c.toNat / 64 % 32 + 192), carry c.toNat]
      else if c.toNat ≤ 65535 then
        [UInt8.ofNat (c.toNat / 4096 % 16 + 224), carry (c.toNat / 64), carry c.toNat]
      else
        [UInt8.ofNat (c.toNat / 262144 % 8 + 240), carry (c.toNat / 4096), carry (c.toNat / 64),
          carry c.toNat] := rfl
  rw [hbytes]
  by_cases h₁ : c.toNat ≤ 127
  · exact .inl ⟨by omega, if_pos h₁⟩
  refine .inr ?_
  rw [if_neg h₁]
  by_cases h₂ : c.toNat ≤ 2047
  · rw [if_pos h₂, Nat.mod_eq_of_lt (a := c.toNat / 64) (by omega)]
    exact .inl ⟨by omega, by omega, rfl⟩
  refine .inr ?_
  rw [if_neg h₂]
  by_cases h₃ : c.toNat ≤ 65535
  · rw [if_pos h₃, Nat.mod_eq_of_lt (a := c.toNat / 4096) (by omega)]
    exact .inl ⟨by omega, by omega, by omega, rfl⟩
  · rw [if_neg h₃, Nat.mod_eq_of_lt (a := c.toNat / 262144) (by omega)]
    exact .inr ⟨by omega, by omega, rfl⟩

/-- **A character is read back from its bytes,** whatever follows. -/
theorem decode_encodeChar (c : Char) (r : List UInt8) :
    decode (String.utf8EncodeChar c ++ r) = some c :: decode r := by
  have hc : some c :: decode r = some (Char.ofNat c.toNat) :: decode r := by rw [Char.ofNat_toNat]
  rw [hc]
  rcases encodeChar_cases c with ⟨h, heq⟩ | ⟨h, h', heq⟩ | ⟨h, h', hvalid, heq⟩ | ⟨h, h', heq⟩ <;>
    rw [heq]
  · exact decode_one r h
  · exact decode_two r h h'
  · exact decode_three r h h' hvalid
  · exact decode_four r h h'

/-- No byte of a character is `FF`, and its first byte does not continue another character. -/
theorem encodeChar_shape (c : Char) :
    (∀ b ∈ String.utf8EncodeChar c, b ≠ 0xFF) ∧
      ∃ b r, String.utf8EncodeChar c = b :: r ∧ b.toNat / 64 ≠ 2 := by
  have hne : ∀ b : UInt8, b.toNat < 255 → b ≠ 0xFF := by
    rintro b hb rfl
    exact absurd hb (by decide)
  have hcarry : ∀ v, carry v ≠ 0xFF := by
    intro v
    refine hne _ ?_
    rw [toNat_carry]
    omega
  have hlead : ∀ n mark, n + mark < 255 → (∀ b ∈ [UInt8.ofNat (n + mark)], b ≠ 0xFF) ∧
      (UInt8.ofNat (n + mark)).toNat = n + mark := by
    intro n mark h
    have hb := toNat_lead n mark (by omega)
    refine ⟨?_, hb⟩
    rw [List.forall_mem_singleton]
    exact hne _ (by omega)
  rcases encodeChar_cases c with ⟨h, heq⟩ | ⟨h, h', heq⟩ | ⟨h, h', -, heq⟩ | ⟨h, h', heq⟩ <;>
    rw [heq]
  · obtain ⟨hff, hb⟩ := hlead c.toNat 0 (by omega)
    exact ⟨hff, _, _, rfl, by rw [Nat.add_zero] at hb; omega⟩
  · obtain ⟨hff, hb⟩ := hlead (c.toNat / 64) 192 (by omega)
    exact ⟨by simpa [hcarry] using hff, _, _, rfl, by omega⟩
  · obtain ⟨hff, hb⟩ := hlead (c.toNat / 4096) 224 (by omega)
    exact ⟨by simpa [hcarry] using hff, _, _, rfl, by omega⟩
  · obtain ⟨hff, hb⟩ := hlead (c.toNat / 262144) 240 (by omega)
    exact ⟨by simpa [hcarry] using hff, _, _, rfl, by omega⟩

/-- Only the character NUL has the byte zero. -/
theorem encodeChar_ne_zero {c : Char} (hc : c ≠ '\x00') : ∀ b ∈ String.utf8EncodeChar c, b ≠ 0 := by
  have hpos : c.toNat ≠ 0 := by
    intro h
    rw [← Char.ofNat_toNat c, h] at hc
    exact hc rfl
  have hne : ∀ b : UInt8, b.toNat ≠ 0 → b ≠ 0 := by
    rintro b hb rfl
    exact hb rfl
  have hcarry : ∀ v, carry v ≠ 0 := by
    intro v
    refine hne _ ?_
    rw [toNat_carry]
    omega
  have hlead : ∀ n mark, n + mark < 256 → n + mark ≠ 0 → UInt8.ofNat (n + mark) ≠ 0 := by
    intro n mark h hn
    refine hne _ ?_
    rwa [toNat_lead n mark h]
  rcases encodeChar_cases c with ⟨h, heq⟩ | ⟨h, h', heq⟩ | ⟨h, h', -, heq⟩ | ⟨h, h', heq⟩ <;>
    rw [heq]
  · simpa using hlead c.toNat 0 (by omega) hpos
  · simpa [hcarry] using hlead (c.toNat / 64) 192 (by omega) (by omega)
  · simpa [hcarry] using hlead (c.toNat / 4096) 224 (by omega) (by omega)
  · simpa [hcarry] using hlead (c.toNat / 262144) 240 (by omega) (by omega)

/-! ### Texts -/

theorem decode_flatMap (cs : List Char) :
    decode (cs.flatMap String.utf8EncodeChar) = cs.map some := by
  induction cs with
  | nil => rw [List.flatMap_nil, decode, List.map_nil]
  | cons c cs ih => rw [List.flatMap_cons, decode_encodeChar, ih, List.map_cons]

theorem encode_ne (s : String) : ∀ b ∈ encode s, b ≠ 0xFF := by
  intro b hb
  rw [encode_eq_flatMap] at hb
  obtain ⟨c, -, hc⟩ := List.mem_flatMap.1 hb
  exact (encodeChar_shape c).1 b hc

/-- A text starts with the first byte of a character. -/
theorem encode_head {s : String} {b : UInt8} {r : List UInt8} (h : encode s = b :: r) :
    b.toNat / 64 ≠ 2 := by
  rw [encode_eq_flatMap] at h
  cases hs : s.toList with
  | nil =>
    rw [hs] at h
    exact absurd h nofun
  | cons c cs =>
    obtain ⟨-, b', r', hc, hb'⟩ := encodeChar_shape c
    rw [hs, List.flatMap_cons, hc] at h
    obtain ⟨rfl, -⟩ := List.cons.inj h
    exact hb'

/-- **A text is read back from its bytes.** -/
theorem strict?_encode (s : String) : strict? (encode s) = some s := by
  have hall : ∀ cs : List Char, (cs.map some).mapM id = some cs := by
    intro cs
    induction cs with
    | nil => rfl
    | cons c cs ih => rw [List.map_cons, List.mapM_cons, ih]; rfl
  rw [strict?, encode_eq_flatMap, decode_flatMap, hall, Option.map_some, String.ofList_toList]

/-- **A text without NUL crosses the boundary to C unchanged.** -/
theorem ofC_encode {s : String} (h : '\x00' ∉ s.toList) : ofC (some (encode s)) = s := by
  have hne : ∀ b ∈ encode s, b ≠ 0 := by
    intro b hb
    rw [encode_eq_flatMap] at hb
    obtain ⟨c, hc, hb⟩ := List.mem_flatMap.1 hb
    exact encodeChar_ne_zero (fun heq => h (heq ▸ hc)) b hb
  have hwhole : (encode s).takeWhile (· ≠ 0) = encode s := by
    rw [← List.append_nil (encode s), List.takeWhile_append_of_pos (by simpa using hne)]
    rfl
  have hread : (s.toList.map some).map (·.getD replacement) = s.toList := by
    rw [List.map_map]
    exact List.map_id _
  rw [ofC, hwhole, lenient, encode_eq_flatMap, decode_flatMap, hread, String.ofList_toList]

/-- Different texts have different bytes. -/
theorem encode_injective {s t : String} (h : encode s = encode t) : s = t := by
  have hread := strict?_encode s
  rw [h, strict?_encode t] at hread
  exact (Option.some.inj hread).symm

end Text
end Bindery
