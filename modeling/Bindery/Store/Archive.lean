/-
# Index files

An index file has three parts, all numbers in little-endian order:

| part | content |
| --- | --- |
| texts | for each entry its hash, signature and return type, as far as longer than 8 bytes |
| records | from a multiple of 4 on, 28 bytes for each entry |
| root | 8 bytes: offset of the first record from the root, number of records |

A record holds hash, signature, kind with three bytes of padding, and return type. A text takes 8
bytes in a record: up to 8 bytes stand there themselves, with `FF` behind them; a longer text is
given by its length, whose bits 6 and 7 are taken for a mark and so are shifted up by two, and by
the offset of its bytes from the text's place in the record.

Reading takes the root from the end of the file. What it refers to must lie before it, aligned and
without overlap: records before the root, texts before the records and each behind the texts
already read.
-/

import Bindery.Store.Index
import Bindery.Text.Utf8

namespace Bindery
namespace Archive

/-- The size of a record. -/
def recordSize : Nat := 28

/-- The size of the root. -/
def rootSize : Nat := 8

/-- The greatest number of bytes of a text that stand in a record. -/
def inlineSize : Nat := 8

/-- A number in `n` bytes, least first. -/
def littleEndian (n value : Nat) : List UInt8 :=
  (List.range n).map fun i => UInt8.ofNat (value / Nat.pow 256 i)

/-- How many numbers four bytes can tell apart. -/
def wordCount : Nat := 0x100000000

/-- A signed number in four bytes. -/
def signedBytes (value : Int) : List UInt8 := littleEndian 4 (value % wordCount).toNat

/-- The length of a text behind the mark for texts outside the record. -/
def lengthField (n : Nat) : Nat := n % 64 + 128 + n / 64 * 256

/-- The texts of an entry, in the order of the record. -/
def texts (e : IndexEntry) : List (List UInt8) :=
  [Text.encode e.hash, Text.encode e.signature, Text.encode e.returnType]

/-- The place of a text in a record at `place`, for a text whose bytes stand at `position`. -/
def field (place position : Nat) (bs : List UInt8) : List UInt8 :=
  if bs.length ≤ inlineSize then bs ++ List.replicate (inlineSize - bs.length) 0xFF
  else littleEndian 4 (lengthField bs.length) ++ signedBytes ((position : Int) - place)

/-- The number of bytes that a text takes outside the record. -/
def outside (bs : List UInt8) : Nat := if bs.length ≤ inlineSize then 0 else bs.length

/-- The record of an entry at `place` whose texts stand from `position` on. -/
def record (place position : Nat) (e : IndexEntry) : List UInt8 :=
  let hash := Text.encode e.hash
  let signature := Text.encode e.signature
  let returnType := Text.encode e.returnType
  field place position hash ++ field (place + 8) (position + outside hash) signature ++
    [e.kind, 0, 0, 0] ++
    field (place + 20) (position + outside hash + outside signature) returnType

/-- The bytes of all texts that do not fit into records. -/
def heap (entries : Index) : List UInt8 :=
  (entries.flatMap texts).flatMap fun bs => if bs.length ≤ inlineSize then [] else bs

/-- The number of bytes that the texts of an entry take outside its record. -/
def outsideAll (e : IndexEntry) : Nat := (texts e).foldl (fun n bs => n + outside bs) 0

/-- The records of entries. -/
def records (place position : Nat) : Index → List UInt8
  | [] => []
  | e :: r =>
    record place position e ++
      records (place + recordSize) (position + outsideAll e) r

/-- The bytes of an index whose entries are in order. -/
def write (entries : Index) : List UInt8 :=
  let texts := heap entries
  let padded := texts ++ List.replicate ((4 - texts.length % 4) % 4) 0
  let offset : Int := -((recordSize * entries.length : Nat) : Int)
  padded ++ records padded.length 0 entries ++ signedBytes offset ++ littleEndian 4 entries.length

/-- The number in the four bytes at a place. -/
def wordAt (bytes : Array UInt8) (place : Nat) : Nat :=
  (List.range 4).foldl (fun n i => n + (bytes.getD (place + i) 0).toNat * Nat.pow 256 i) 0

/-- The signed number in the four bytes at a place. -/
def signedAt (bytes : Array UInt8) (place : Nat) : Int :=
  let n := wordAt bytes place
  if n < wordCount / 2 then n else (n : Int) - wordCount

/-- The `n` bytes at a place. -/
def slice (bytes : Array UInt8) (place n : Nat) : List UInt8 :=
  (bytes.extract place (place + n)).toList

/-- The text whose place in a record is `place`. Texts outside lie between `low` and `high`; the
bytes up to the end of the text are taken from them. -/
def readText? (bytes : Array UInt8) (place low high : Nat) : Option (String × Nat) :=
  let first := (bytes.getD place 0).toNat
  if first / 64 = 2 then
    let n := wordAt bytes place
    let length := n % 64 + n / 256 * 64
    let start := (place : Int) + signedAt bytes (place + 4)
    if (low : Int) ≤ start ∧ start + length ≤ high then
      (Text.strict? (slice bytes start.toNat length)).map fun s => (s, start.toNat + length)
    else none
  else
    let bs := (slice bytes place inlineSize).takeWhile (· ≠ 0xFF)
    (Text.strict? bs).map fun s => (s, low)

/-- Reads `n` records from `place` on; texts lie between `low` and `high`. -/
def readRecords? (bytes : Array UInt8) (high : Nat) : Nat → Nat → Nat → Option Index
  | 0, _, _ => some []
  | n + 1, place, low => do
    let (hash, low) ← readText? bytes place low high
    let (signature, low) ← readText? bytes (place + 8) low high
    let (returnType, low) ← readText? bytes (place + 20) low high
    let rest ← readRecords? bytes high n (place + recordSize) low
    some (⟨hash, signature, bytes.getD (place + 16) 0, returnType⟩ :: rest)

/-- The entries of an index file. -/
def read? (file : List UInt8) : Option Index :=
  let bytes := file.toArray
  if bytes.size < rootSize ∨ bytes.size % 4 ≠ 0 then none
  else
    let root := bytes.size - rootSize
    let count := wordAt bytes (root + 4)
    let start := (root : Int) + signedAt bytes root
    if 0 ≤ start ∧ start % 4 = 0 ∧ start + (recordSize * count : Nat) ≤ root then
      readRecords? bytes start.toNat count start.toNat 0
    else none

end Archive
end Bindery
