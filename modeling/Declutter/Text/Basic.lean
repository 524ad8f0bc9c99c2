/-!
# Texts

A text is the list of its characters. Everything the library reads or writes is a text until it
meets a disk, and every scan is a recursion over one. This file has the operations the scans share:
lines, and the first occurrence of a marker.

`cut?_eq_some` says what a cut is: the text is the part before, the marker and the part after. The
recursions that continue after a marker end because of it (`length_lt_of_cut?`).
-/

namespace Declutter

/-- A text, character by character. -/
abbrev Text := List Char

namespace Text

/-- The lines of a text: what stands between its line feeds. There is always at least one. -/
def lines (s : Text) : List Text := s.splitOn '\n'

/-- Lines put together again, with a line feed between neighbours. -/
def unlines (ls : List Text) : Text := ['\n'].intercalate ls

/-- How many line feeds a text has. -/
def feeds (s : Text) : Nat := s.count '\n'

/-- The text before the first occurrence of `m`, and the text after it. -/
def cut? (m : Text) : Text → Option (Text × Text)
  | [] => if m = [] then some ([], []) else none
  | c :: s =>
    match m.isPrefixOf? (c :: s) with
    | some rest => some ([], rest)
    | none => (cut? m s).map fun (before, rest) => (c :: before, rest)

theorem eq_append_of_isPrefixOf? {m s rest : Text} (h : m.isPrefixOf? s = some rest) :
    s = m ++ rest := by
  induction m generalizing s with
  | nil => exact Option.some.inj h
  | cons a m ih =>
    cases s with
    | nil => exact absurd h nofun
    | cons b s =>
      have h : (if a == b then m.isPrefixOf? s else none) = some rest := h
      split at h
      · next hab => rw [eq_of_beq hab, ih h, List.cons_append]
      · exact absurd h (by simp only [reduceCtorEq, not_false_eq_true])

theorem cut?_eq_some {m s before rest : Text} (h : cut? m s = some (before, rest)) :
    s = before ++ m ++ rest := by
  induction s generalizing before with
  | nil =>
    simp only [cut?] at h
    split at h <;> simp_all
  | cons c s ih =>
    simp only [cut?] at h
    split at h
    · next r hr =>
      obtain ⟨rfl, rfl⟩ : [] = before ∧ r = rest := by simpa using h
      simpa using eq_append_of_isPrefixOf? hr
    · obtain ⟨⟨b, r⟩, hbr, heq⟩ := Option.map_eq_some_iff.1 h
      obtain ⟨rfl, rfl⟩ : c :: b = before ∧ r = rest := by simpa using heq
      simp [ih hbr]

/-- A cut at a marker that is not empty leaves a shorter text behind. -/
theorem length_lt_of_cut? {m s before rest : Text} (hm : m ≠ [])
    (h : cut? m s = some (before, rest)) : rest.length < s.length := by
  have := List.length_pos_iff.2 hm
  rw [cut?_eq_some h]
  simp only [List.length_append]
  omega

end Text

end Declutter
