import Mathlib
import Declutter.Proofs.Text.Pieces
import Declutter.Text.Word

/-!
# Words and names

A character that is no word character ends a word (`words_append_cons`), so a name that stands
between two of them is a word (`words_append`), and a text that begins with a word has that word
first (`words_cons_of_isWord`). The characters of names are word characters, and blanks
are not.
-/

namespace Declutter

theorem isWord_of_isNameChar {c : Char} (h : isNameChar c) : isWord c := by
  have hlt : c.toNat < 0x80 := by
    rcases Bool.or_eq_true_iff.1 h with h | h
    · simp only [Char.isAlphanum, Char.isAlpha, Char.isUpper, Char.isLower, Char.isDigit,
        Bool.or_eq_true, Bool.and_eq_true, decide_eq_true_eq, UInt32.le_iff_toNat_le, ge_iff_le] at h
      have hc : c.toNat = c.val.toNat := rfl
      have hZ : 'Z'.val.toNat = 90 := rfl
      have hz : 'z'.val.toNat = 122 := rfl
      have h9 : '9'.val.toNat = 57 := rfl
      omega
    · rw [eq_of_beq h]
      decide
  rw [isWord, if_pos hlt]
  exact h

theorem isNameChar_of_isNameStart {c : Char} (h : isNameStart c) : isNameChar c := by
  simp only [isNameStart, Bool.or_eq_true] at h
  simp only [isNameChar, Char.isAlphanum, Bool.or_eq_true]
  exact h.imp_left .inl

/-- The codes of the blanks, one by one. -/
def blankCodes : List Nat :=
  List.range' 0x09 5 ++ List.range' 0x2000 11 ++
    [0x20, 0x85, 0xA0, 0x1680, 0x2028, 0x2029, 0x202F, 0x205F, 0x3000]

theorem toNat_mem_blankCodes {c : Char} (h : isBlank c) : c.toNat ∈ blankCodes := by
  simp only [isBlank, Bool.or_eq_true, Bool.and_eq_true, decide_eq_true_eq, beq_iff_eq] at h
  simp only [blankCodes, List.mem_append, List.mem_range'_1, List.mem_cons, List.not_mem_nil]
  omega

theorem not_isWord_of_isBlank {c : Char} (h : isBlank c) : isWord c = false := by
  have hall : ∀ n ∈ blankCodes, isWord (Char.ofNat n) = false := by decide +kernel
  have := hall c.toNat (toNat_mem_blankCodes h)
  rwa [Char.ofNat_toNat] at this

namespace Text

variable {c : Char} {name after s t : Text}

@[simp] theorem words_nil : words [] = [] := rfl

theorem words_append_cons (hc : isWord c = false) (s t : Text) :
    words (s ++ c :: t) = words s ++ words t := by
  unfold words
  rw [List.splitOnP_append_cons s t (by simpa using hc), List.filter_append]

theorem words_cons (hc : isWord c = false) (s : Text) : words (c :: s) = words s :=
  words_append_cons hc [] s

theorem words_of_forall (hne : s ≠ []) (h : ∀ c ∈ s, isWord c) : words s = [s] := by
  unfold words
  rw [List.splitOnP_eq_singleton fun c hc => by simpa using h c hc]
  simp [hne]

/-- A word ends at a character that is none of its own. -/
theorem words_append (hne : name ≠ []) (h : ∀ c ∈ name, isWord c)
    (hafter : ∀ c ∈ after.head?, isWord c = false) : words (name ++ after) = name :: words after := by
  cases after with
  | nil => rw [List.append_nil, words_of_forall hne h]; rfl
  | cons c after =>
    have hc := hafter c rfl
    rw [words_append_cons hc, words_of_forall hne h, words_cons hc]
    rfl

/-- No word character stands where a word ends. -/
theorem not_isWord_of_dropWhile (s : Text) :
    ∀ c ∈ (s.dropWhile isWord).head?, isWord c = false :=
  stop_of_dropWhile isWord s

theorem words_cons_of_isWord (hc : isWord c) (s : Text) :
    words (c :: s) = (c :: s.takeWhile isWord) :: words (s.dropWhile isWord) := by
  have hword : ∀ a ∈ c :: s.takeWhile isWord, isWord a :=
    List.forall_mem_cons.2 ⟨hc, List.all_eq_true.1 List.all_takeWhile⟩
  rw [← words_append (by simp) hword (not_isWord_of_dropWhile s), List.cons_append,
    List.takeWhile_append_dropWhile]

end Text

end Declutter
