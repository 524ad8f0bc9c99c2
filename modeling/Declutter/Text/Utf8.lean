import Declutter.Text.Basic

/-!
# UTF-8

Texts as bytes and bytes as texts. Bytes are read in parts: a part is a character, or a longest run
of bytes that begins like a character and then breaks off. A strict reader refuses the second kind
(`decode?`), a lenient one puts U+FFFD in its place (`decodeLossy`).
-/

namespace Declutter.Text

/-- The bytes of a text. -/
def utf8 (s : Text) : List UInt8 := s.flatMap String.utf8EncodeChar

/-- What a lead byte says of its character: how many bytes follow, the range of the next one, and
the bits it carries itself. -/
structure Lead where
  tails : Nat
  low : UInt8
  high : UInt8
  bits : Nat

/-- The lead of a character of two to four bytes. -/
def lead? (b : UInt8) : Option Lead :=
  if 0xC2 ≤ b && b ≤ 0xDF then some ⟨1, 0x80, 0xBF, b.toNat - 0xC0⟩
  else if b == 0xE0 then some ⟨2, 0xA0, 0xBF, 0⟩
  else if b == 0xED then some ⟨2, 0x80, 0x9F, 0xD⟩
  else if 0xE1 ≤ b && b ≤ 0xEF then some ⟨2, 0x80, 0xBF, b.toNat - 0xE0⟩
  else if b == 0xF0 then some ⟨3, 0x90, 0xBF, 0⟩
  else if 0xF1 ≤ b && b ≤ 0xF3 then some ⟨3, 0x80, 0xBF, b.toNat - 0xF0⟩
  else if b == 0xF4 then some ⟨3, 0x80, 0x8F, 4⟩
  else none

/-- Reads `n` tail bytes, the first of them from `low` to `high`. Gives the code point, if none was
missing, and the bytes that were not read. -/
def readTails : Nat → UInt8 → UInt8 → Nat → List UInt8 → Option Nat × List UInt8
  | 0, _, _, bits, bs => (some bits, bs)
  | _ + 1, _, _, _, [] => (none, [])
  | n + 1, low, high, bits, b :: bs =>
    if low ≤ b && b ≤ high then readTails n 0x80 0xBF (bits * 64 + (b.toNat - 0x80)) bs
    else (none, b :: bs)

theorem length_readTails_le (n : Nat) (low high : UInt8) (bits : Nat) (bs : List UInt8) :
    (readTails n low high bits bs).2.length ≤ bs.length := by
  induction bs generalizing n low high bits with
  | nil => cases n <;> simp [readTails]
  | cons b bs ih =>
    cases n with
    | zero => simp [readTails]
    | succ n =>
      simp only [readTails]
      split
      · exact Nat.le_succ_of_le (ih ..)
      · simp

/-- The parts of a byte sequence: a character, or `none` for bytes that are not one. -/
def parts : List UInt8 → List (Option Char)
  | [] => []
  | b :: bs =>
    if b < 0x80 then some (Char.ofNat b.toNat) :: parts bs
    else
      match lead? b with
      | none => none :: parts bs
      | some l =>
        let r := readTails l.tails l.low l.high l.bits bs
        r.1.map Char.ofNat :: parts r.2
termination_by bs => bs.length
decreasing_by
  · simp
  · simp
  · exact Nat.lt_succ_of_le (length_readTails_le ..)

/-- The text of a byte sequence, if all of it is UTF-8. -/
def decode? (bs : List UInt8) : Option Text := (parts bs).mapM id

/-- The text of a byte sequence, with U+FFFD for each part that is not UTF-8. -/
def decodeLossy (bs : List UInt8) : Text := (parts bs).map (·.getD '\uFFFD')

end Declutter.Text
