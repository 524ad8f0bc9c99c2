import Mathlib
import Declutter.Text.Utf8

/-!
# The order of bytes

Names on a disk are compared byte by byte, and texts character by character. The two orders agree
(`utf8_lt`): UTF-8 writes a code as digits with the most significant one first, six bits to each
byte after the first (`write_lt`), and the first byte is the greater the more bytes follow it
(`write_lt_write`).
-/

namespace Declutter.Text

/-- A way to write codes: the first byte counts up from `base` and has `size` values, and `tails`
bytes of six bits follow. -/
structure ByteForm where
  size : Nat
  base : Nat
  tails : Nat

/-- The form in which a code is written. -/
def byteForm (v : Nat) : ByteForm :=
  if v < 0x80 then ⟨0x80, 0, 0⟩
  else if v < 0x800 then ⟨0x20, 0xc0, 1⟩
  else if v < 0x10000 then ⟨0x10, 0xe0, 2⟩
  else ⟨0x08, 0xf0, 3⟩

/-- A code as a first byte and `n` bytes of six bits. -/
def digits (size base : Nat) : Nat → Nat → List UInt8
  | 0, v => [UInt8.ofNat (v % size + base)]
  | n + 1, v => digits size base n (v / 64) ++ [UInt8.ofNat (v % 64 + 0x80)]

/-- A code in a form. -/
def ByteForm.write (f : ByteForm) (v : Nat) : List UInt8 := digits f.size f.base f.tails v

theorem utf8EncodeChar_eq (c : Char) :
    String.utf8EncodeChar c = (byteForm c.toNat).write c.toNat := by
  have hv : c.toNat = c.val.toNat := rfl
  unfold String.utf8EncodeChar byteForm
  simp only [hv, ← Nat.lt_succ_iff]
  split
  · next h => simp only [ByteForm.write, digits, Nat.mod_eq_of_lt h, Nat.add_zero]
  split
  · rfl
  split
  · simp only [ByteForm.write, digits, Nat.div_div_eq_div_mul, List.cons_append, List.nil_append]
  · simp only [ByteForm.write, digits, Nat.div_div_eq_div_mul, List.cons_append, List.nil_append]

/-! ## Bytes of two codes -/

theorem cons_byte_lt {a b : Nat} (h : a < b) (hb : b < 256) (x y : List UInt8) :
    UInt8.ofNat a :: x < UInt8.ofNat b :: y := by
  refine .rel ((UInt8.ofNat_lt_iff_lt ?_ ?_).2 h) <;> rw [UInt8.size] <;> omega

theorem digits_lt {size base n v w : Nat} (hbase : base + size ≤ 256) (h : v < w)
    (hw : w < size * 64 ^ n) (x y : List UInt8) :
    digits size base n v ++ x < digits size base n w ++ y := by
  induction n generalizing v w x y with
  | zero =>
    rw [Nat.pow_zero, Nat.mul_one] at hw
    rw [digits, digits, Nat.mod_eq_of_lt hw, Nat.mod_eq_of_lt (h.trans hw)]
    exact cons_byte_lt (by omega) (by omega) x y
  | succ n ih =>
    have hw' : w / 64 < size * 64 ^ n := by
      rw [Nat.div_lt_iff_lt_mul (by decide), Nat.mul_assoc, ← Nat.pow_succ]
      exact hw
    have hdigit : v / 64 < w / 64 ∨ v / 64 = w / 64 ∧ v % 64 < w % 64 := by omega
    rw [digits, digits, List.append_assoc, List.append_assoc]
    rcases hdigit with hlt | ⟨heq, hlt⟩
    · exact ih hlt hw' _ _
    · rw [heq]
      exact List.append_left_lt (cons_byte_lt (by omega) (by omega) x y)

theorem digits_eq_cons {size : Nat} (hsize : 0 < size) (base n v : Nat) :
    ∃ a x, a < size ∧ digits size base n v = UInt8.ofNat (a + base) :: x := by
  induction n generalizing v with
  | zero => exact ⟨_, [], Nat.mod_lt _ hsize, rfl⟩
  | succ n ih =>
    obtain ⟨a, x, ha, hx⟩ := ih (v / 64)
    exact ⟨a, _, ha, by rw [digits, hx, List.cons_append]⟩

theorem byteForm_size_pos (v : Nat) : 0 < (byteForm v).size := by
  unfold byteForm
  split_ifs <;> decide

theorem byteForm_le (v : Nat) : (byteForm v).base + (byteForm v).size ≤ 256 := by
  unfold byteForm
  split_ifs <;> decide

theorem lt_of_byteForm {v : Nat} (h : v < 0x110000) :
    v < (byteForm v).size * 64 ^ (byteForm v).tails := by
  unfold byteForm
  split_ifs <;> simp only <;> omega

/-- A greater code has the same form, or one with greater first bytes. -/
theorem byteForm_cases {v w : Nat} (h : v < w) : byteForm v = byteForm w ∨
    (byteForm v).base + (byteForm v).size ≤ (byteForm w).base := by
  unfold byteForm
  split_ifs <;> simp <;> omega

/-- Codes in one form are in the order of their bytes, whatever stands behind these. -/
theorem write_lt {v w : Nat} (h : v < w) (hw : w < 0x110000) (hform : byteForm v = byteForm w)
    (x y : List UInt8) : (byteForm v).write v ++ x < (byteForm w).write w ++ y := by
  rw [hform]
  exact digits_lt (byteForm_le w) h (lt_of_byteForm hw) x y

/-- So are codes in forms with different first bytes. -/
theorem write_lt_write {v w : Nat} (h : (byteForm v).base + (byteForm v).size ≤ (byteForm w).base)
    (x y : List UInt8) : (byteForm v).write v ++ x < (byteForm w).write w ++ y := by
  have hle := byteForm_le w
  obtain ⟨a, s, ha, hs⟩ :=
    digits_eq_cons (byteForm_size_pos v) (byteForm v).base (byteForm v).tails v
  obtain ⟨b, t, hb, ht⟩ :=
    digits_eq_cons (byteForm_size_pos w) (byteForm w).base (byteForm w).tails w
  rw [ByteForm.write, ByteForm.write, hs, ht, List.cons_append, List.cons_append]
  exact cons_byte_lt (by omega) (by omega) _ _

/-! ## Texts -/

theorem utf8EncodeChar_lt {c d : Char} (h : c < d) (x y : List UInt8) :
    String.utf8EncodeChar c ++ x < String.utf8EncodeChar d ++ y := by
  have hlt : c.toNat < d.toNat := h
  have hd : d.toNat < 0x110000 := by
    have hv : d.toNat = d.val.toNat := rfl
    rcases d.valid with hd | hd <;> omega
  rw [utf8EncodeChar_eq, utf8EncodeChar_eq]
  rcases byteForm_cases hlt with hform | hform
  · exact write_lt hlt hd hform x y
  · exact write_lt_write hform x y

/-- **Texts are in the order of their bytes.** -/
theorem utf8_lt {s t : Text} (h : s < t) : s.utf8 < t.utf8 := by
  induction h with
  | @nil c t =>
    obtain ⟨b, x, hb⟩ := List.exists_cons_of_ne_nil (String.utf8EncodeChar_ne_nil (c := c))
    rw [utf8, utf8, List.flatMap_cons, hb]
    exact .nil
  | rel h =>
    rw [utf8, utf8, List.flatMap_cons, List.flatMap_cons]
    exact utf8EncodeChar_lt h _ _
  | cons _ ih =>
    rw [utf8, utf8, List.flatMap_cons, List.flatMap_cons]
    exact List.append_left_lt ih

end Declutter.Text
