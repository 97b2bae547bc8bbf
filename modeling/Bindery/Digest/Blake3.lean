/-
# BLAKE3

The hash function BLAKE3 on byte lists, unkeyed, with its default output of 32 bytes.

The input is cut into chunks of 1024 bytes. A chunk is compressed in blocks of 64 bytes, each
into the chaining value left by the block before it; chaining values are joined pairwise in a
binary tree whose left subtrees are full, and the last compression, marked by a flag, gives the
digest. A compression runs seven rounds of `quarter` steps on sixteen 32-bit words.
-/

namespace Bindery
namespace Blake3

/-- The sixteen words of a block or of a compression state. -/
abbrev Words := Vector UInt32 16

/-- The eight words that one compression hands to the next. -/
abbrev Chain := Vector UInt32 8

/-- The chaining value at the start of every chunk. -/
def start : Chain :=
  #v[0x6A09E667, 0xBB67AE85, 0x3C6EF372, 0xA54FF53A, 0x510E527F, 0x9B05688C, 0x1F83D9AB, 0x5BE0CD19]

/-- The order in which a round reads the words of the round before it. -/
def schedule : Vector (Fin 16) 16 := #v[2, 6, 3, 10, 7, 0, 4, 13, 1, 11, 12, 5, 9, 14, 15, 8]

def chunkStart : UInt32 := 1

def chunkEnd : UInt32 := 2

def parent : UInt32 := 4

def root : UInt32 := 8

/-- Rotation to the right. -/
def rotate (x : UInt32) (n : UInt32) : UInt32 := (x >>> n) ||| (x <<< (32 - n))

/-- Mixes two message words into four words of the state. -/
def quarter (a b c d : Fin 16) (x y : UInt32) (v : Words) : Words :=
  let va := v[a] + v[b] + x
  let vd := rotate (v[d] ^^^ va) 16
  let vc := v[c] + vd
  let vb := rotate (v[b] ^^^ vc) 12
  let va := va + vb + y
  let vd := rotate (vd ^^^ va) 8
  let vc := vc + vd
  let vb := rotate (vb ^^^ vc) 7
  (((v.set a va).set b vb).set c vc).set d vd

/-- One round: the four columns of the state, then its four diagonals. -/
def round (m v : Words) : Words :=
  let v := quarter 0 4 8 12 m[0] m[1] v
  let v := quarter 1 5 9 13 m[2] m[3] v
  let v := quarter 2 6 10 14 m[4] m[5] v
  let v := quarter 3 7 11 15 m[6] m[7] v
  let v := quarter 0 5 10 15 m[8] m[9] v
  let v := quarter 1 6 11 12 m[10] m[11] v
  let v := quarter 2 7 8 13 m[12] m[13] v
  quarter 3 4 9 14 m[14] m[15] v

/-- `n` rounds, each on the permuted words of the one before. -/
def rounds : Nat → Words → Words → Words
  | 0, _, v => v
  | n + 1, m, v => rounds n (Vector.ofFn fun i => m[schedule[i]]) (round m v)

/-- One compression of a block of `size` bytes. -/
def compress (chain : Chain) (block : Words) (counter : Nat) (size flags : UInt32) : Chain :=
  let v : Words := #v[chain[0], chain[1], chain[2], chain[3], chain[4], chain[5], chain[6], chain[7],
    start[0], start[1], start[2], start[3],
    UInt32.ofNat counter, UInt32.ofNat (counter / 0x100000000), size, flags]
  let v := rounds 7 block v
  #v[v[0] ^^^ v[8], v[1] ^^^ v[9], v[2] ^^^ v[10], v[3] ^^^ v[11],
    v[4] ^^^ v[12], v[5] ^^^ v[13], v[6] ^^^ v[14], v[7] ^^^ v[15]]

/-- The little-endian word in the first four bytes; missing bytes count as zero. -/
def word (bs : List UInt8) : UInt32 :=
  (bs.take 4).foldr (fun b w => w <<< 8 ||| b.toUInt32) 0

/-- A block of up to 64 bytes as words. -/
def blockOf (bs : List UInt8) : Words := Vector.ofFn fun i => word (bs.drop (4 * i.val))

/-- The pieces of `n + 1` elements of a list, the last one possibly shorter. -/
def piecesOf {α : Type} (n : Nat) : List α → List (List α)
  | [] => []
  | a :: r => (a :: r.take n) :: piecesOf n (r.drop n)
termination_by l => l.length
decreasing_by simp only [List.length_drop, List.length_cons]; omega

/-- A compression that is still to be done: its flags may yet gain `root`. -/
structure Pending where
  chain : Chain
  block : Words
  counter : Nat
  size : UInt32
  flags : UInt32

/-- Carries out a compression. -/
def Pending.run (p : Pending) (extra : UInt32) : Chain :=
  compress p.chain p.block p.counter p.size (p.flags ||| extra)

/-- Compresses the blocks of a chunk up to the last, which stays pending. -/
def blocks (counter : Nat) (chain : Chain) (flags : UInt32) : List (List UInt8) → Pending
  | [] => ⟨chain, blockOf [], counter, 0, flags ||| chunkEnd⟩
  | [b] => ⟨chain, blockOf b, counter, UInt32.ofNat b.length, flags ||| chunkEnd⟩
  | b :: r =>
    blocks counter (compress chain (blockOf b) counter (UInt32.ofNat b.length) flags) 0 r

/-- The last compression of a chunk. -/
def chunk (counter : Nat) (bs : List UInt8) : Pending :=
  blocks counter start chunkStart (piecesOf 63 bs)

/-- The compression that joins two subtrees. -/
def join (left right : Chain) : Pending :=
  ⟨start, (left ++ right).cast (by omega), 0, 64, parent⟩

/-- The number of chunks in the left subtree: the greatest power of two below `n`. -/
def leftSize (n : Nat) : Nat := Nat.pow 2 (n - 1).log2

theorem leftSize_lt {n : Nat} (h : 2 ≤ n) : leftSize n < n := by
  have : leftSize n ≤ n - 1 := Nat.log2_self_le (n := n - 1) (by omega)
  omega

theorem leftSize_pos (n : Nat) : 0 < leftSize n := Nat.two_pow_pos _

/-- The last compression of the tree over some chunks, the first of which has number `first`. -/
def tree (first : Nat) : List (List UInt8) → Pending
  | [] => chunk first []
  | [c] => chunk first c
  | a :: b :: r =>
    let n := leftSize (r.length + 2)
    join ((tree first ((a :: b :: r).take n)).run 0)
      ((tree (first + n) ((a :: b :: r).drop n)).run 0)
termination_by cs => cs.length
decreasing_by
  · have := leftSize_lt (n := r.length + 2) (by omega)
    simp only [List.length_take, List.length_cons]
    omega
  · have := leftSize_pos (r.length + 2)
    simp only [List.length_drop, List.length_cons]
    omega

/-- The four bytes of a word, least significant first. -/
def bytesOf (w : UInt32) : List UInt8 :=
  [w.toUInt8, (w >>> 8).toUInt8, (w >>> 16).toUInt8, (w >>> 24).toUInt8]

/-- The digest of a byte list. -/
def digest (bs : List UInt8) : List UInt8 :=
  ((tree 0 (piecesOf 1023 bs)).run root).toList.flatMap bytesOf

end Blake3
end Bindery
