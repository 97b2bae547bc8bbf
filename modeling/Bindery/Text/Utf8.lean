/-
# Text in bytes

UTF-8 read leniently: every maximal part of the input that starts like a character but is none
becomes one U+FFFD. The parts follow the table of well-formed byte sequences:

| first byte | second byte | further bytes |
| --- | --- | --- |
| `00..7F` | | |
| `C2..DF` | `80..BF` | |
| `E0` | `A0..BF` | `80..BF` |
| `E1..EC`, `EE..EF` | `80..BF` | `80..BF` |
| `ED` | `80..9F` | `80..BF` |
| `F0` | `90..BF` | `80..BF`, `80..BF` |
| `F1..F3` | `80..BF` | `80..BF`, `80..BF` |
| `F4` | `80..8F` | `80..BF`, `80..BF` |

Text that crosses the boundary to C ends at its first NUL; a missing text reads as empty.
-/

namespace Bindery
namespace Text

/-- The character that stands for what is no text. -/
def replacement : Char := Char.ofNat 0xFFFD

/-- For a first byte: how many bytes follow, and the least and greatest second byte. -/
def shape? (b : UInt8) : Option (Nat × UInt8 × UInt8) :=
  if b < 0x80 then some (0, 0, 0)
  else if b < 0xC2 then none
  else if b < 0xE0 then some (1, 0x80, 0xBF)
  else if b = 0xE0 then some (2, 0xA0, 0xBF)
  else if b = 0xED then some (2, 0x80, 0x9F)
  else if b < 0xF0 then some (2, 0x80, 0xBF)
  else if b = 0xF0 then some (3, 0x90, 0xBF)
  else if b < 0xF4 then some (3, 0x80, 0xBF)
  else if b = 0xF4 then some (3, 0x80, 0x8F)
  else none

/-- The longest start of `bs` that continues a character: at most `n` bytes, the first of them
between `low` and `high`, the others in `80..BF`. -/
def continuation (n : Nat) (low high : UInt8) (bs : List UInt8) : List UInt8 :=
  match n, bs with
  | n + 1, b :: r => if low ≤ b ∧ b ≤ high then b :: continuation n 0x80 0xBF r else []
  | _, _ => []

/-- The character whose first byte is `b` and whose other bytes are `more`. -/
def assemble (b : UInt8) (more : List UInt8) : Char :=
  let lead := match more.length with
    | 0 => b.toNat
    | 1 => b.toNat % 0x20
    | 2 => b.toNat % 0x10
    | _ => b.toNat % 8
  Char.ofNat (more.foldl (fun n c => 64 * n + c.toNat % 64) lead)

/-- Reads bytes as text: `none` marks each part that is no character. -/
def decode : List UInt8 → List (Option Char)
  | [] => []
  | b :: r =>
    match shape? b with
    | none => none :: decode r
    | some (n, low, high) =>
      let more := continuation n low high r
      (if more.length = n then some (assemble b more) else none) :: decode (r.drop more.length)
termination_by bs => bs.length
decreasing_by
  · simp
  · simp only [List.length_drop, List.length_cons]
    omega

/-- Reads bytes as text, with U+FFFD for each part that is no character. -/
def lenient (bs : List UInt8) : String :=
  String.ofList ((decode bs).map (·.getD replacement))

/-- Reads bytes as text if they are text throughout. -/
def strict? (bs : List UInt8) : Option String :=
  ((decode bs).mapM id).map String.ofList

/-- The bytes of a text. -/
def encode (s : String) : List UInt8 := s.toUTF8.toList

/-- Reads a text that C hands over: up to the first NUL; a null pointer reads as empty. -/
def ofC (text : Option (List UInt8)) : String :=
  match text with
  | none => ""
  | some bs => lenient (bs.takeWhile (· ≠ 0))

end Text
end Bindery
