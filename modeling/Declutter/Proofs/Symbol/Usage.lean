import Mathlib
import Declutter.Proofs.Symbol.Unused
import Declutter.Proofs.Text.Lines

/-!
# Mentions by their positions

The index counts the words of each unit. That is the number of positions in the text of all units,
one after the other, where a name stands alone (`usageCount_eq_positions`). For where a word begins,
a name of word characters stands alone exactly if it is that word (`standsAlone_iff`), and the line
feed between two units is in no word (`words_unlines`).
-/

namespace Declutter

namespace Text

variable {c : Char} {name s : Text}

/-- Whether a name is at the front of a text, and no word character is next to it on either side. -/
def standsAlone (name : Text) (left : Option Char) (s : Text) : Bool :=
  name.isPrefixOf s && !left.any isWord && !(s.drop name.length).head?.any isWord

/-- The number of positions in a text where a name stands alone. -/
def positions (name s : Text) : Nat :=
  (List.range (s.length + 1)).countP fun i => standsAlone name (s.take i).getLast? (s.drop i)

section
variable (hne : name ≠ []) (hname : ∀ c ∈ name, isWord c)

include hname in
theorem isPrefix_and_iff : name <+: s ∧ (s.drop name.length).head?.any isWord = false ↔
    name = s.takeWhile isWord := by
  constructor
  · rintro ⟨⟨t, rfl⟩, hend⟩
    rw [List.drop_left, Option.any_eq_false] at hend
    exact (takeWhile_of_stop hname fun c hc => by simpa using hend c hc).symm
  · intro h
    have hs : name ++ s.dropWhile isWord = s := by rw [h, List.takeWhile_append_dropWhile]
    refine ⟨⟨_, hs⟩, ?_⟩
    rw [← hs, List.drop_left, Option.any_eq_false]
    intro c hc
    simpa using not_isWord_of_dropWhile s c hc

include hname in
theorem standsAlone_iff (left : Option Char) (s : Text) :
    standsAlone name left s ↔ left.any isWord = false ∧ name = s.takeWhile isWord := by
  rw [← isPrefix_and_iff hname, standsAlone, Bool.and_eq_true, Bool.and_eq_true,
    List.isPrefixOf_iff_prefix, Bool.not_eq_true', Bool.not_eq_true', and_right_comm]
  exact and_comm

include hne hname

/-- The positions in a text with a left neighbour: a word that goes on from there does not count. -/
theorem countP_standsAlone (left : Option Char) (s : Text) :
    ((List.range (s.length + 1)).countP fun i =>
        standsAlone name (left.toList ++ s.take i).getLast? (s.drop i)) =
      (words (if left.any isWord then s.dropWhile isWord else s)).count name := by
  induction s generalizing left with
  | nil =>
    rw [List.dropWhile_nil, ite_self, words_nil, List.count_nil, List.countP_eq_zero]
    intro i _ halone
    rw [List.drop_nil, standsAlone_iff hname] at halone
    exact hne halone.2
  | cons c s ih =>
    have hshift : (fun i => standsAlone name (left.toList ++ (c :: s).take i).getLast?
        ((c :: s).drop i)) ∘ Nat.succ =
          fun i => standsAlone name ((some c).toList ++ s.take i).getLast? (s.drop i) := by
      funext i
      simp [List.getLast?_append, List.getLast?_cons]
    rw [List.length_cons, List.range_succ_eq_map, List.countP_cons, List.countP_map, hshift,
      ih (some c)]
    have hleft : left.toList.getLast? = left := by cases left <;> rfl
    simp only [List.take_zero, List.append_nil, List.drop_zero, hleft, standsAlone_iff hname,
      Option.any_some]
    by_cases hc : isWord c
    · rw [if_pos hc, List.takeWhile_cons_of_pos hc, List.dropWhile_cons_of_pos hc]
      by_cases hword : left.any isWord
      · rw [if_pos hword, if_neg (by simp [hword]), Nat.add_zero]
      · rw [if_neg hword, words_cons_of_isWord hc, List.count_cons]
        rw [Bool.not_eq_true] at hword
        simp only [hword, true_and, beq_iff_eq, @eq_comm _ name]
    · have hother : isWord c = false := by simpa using hc
      rw [if_neg hc, List.takeWhile_cons_of_neg hc, List.dropWhile_cons_of_neg hc, ite_self,
        words_cons hother, if_neg (by simp [hne]), Nat.add_zero]

/-- **Words are positions**: a name is a word as often as it stands alone. -/
theorem count_words (s : Text) : s.words.count name = positions name s := by
  have h := countP_standsAlone hne hname none s
  simpa [positions] using h.symm

end

theorem words_unlines (ls : List Text) : words (unlines ls) = ls.flatMap words := by
  induction ls with
  | nil => rfl
  | cons l ls ih =>
    by_cases hls : ls = []
    · subst hls
      simp [unlines]
    · have hfeed : isWord '\n' = false := by decide
      rw [unlines_cons l hls, words_append_cons hfeed, ih, List.flatMap_cons]

end Text

open Declutter.Symbol

variable {x : Lexicon} {name : Text}

theorem Symbol.isWord_of_mem_definitions {s : Text} (h : name ∈ definitions x s) :
    name ≠ [] ∧ ∀ c ∈ name, isWord c := by
  rw [definitions_eq] at h
  obtain ⟨⟨_, after⟩, hcap, rfl⟩ := List.mem_map.1 h
  obtain ⟨-, -, -, -, hne, hname⟩ := capturesFrom_eq_append hcap
  exact ⟨hne, fun c hc => isWord_of_isNameChar (hname c hc)⟩

namespace SymbolIndex

/-- **Mentions are positions** in the text of the whole corpus. A name that no unit defines has no
mentions. -/
theorem usageCount_eq_positions (x : Lexicon) (units : List SourceUnit) (name : Text) :
    ((∃ u ∈ units, name ∈ definitions x u.text) → (ofUnits x units).usageCount name =
      Text.positions name (Text.unlines (units.map (·.text)))) ∧
    ((∀ u ∈ units, name ∉ definitions x u.text) → (ofUnits x units).usageCount name = 0) := by
  constructor
  · rintro ⟨u, hu, hdef⟩
    obtain ⟨hne, hname⟩ := isWord_of_mem_definitions hdef
    rw [usageCount, find?_ofUnits ⟨u, hu, hdef⟩, ← Text.count_words hne hname, Text.words_unlines,
      List.flatMap_map, List.count_flatMap]
    rfl
  · intro hnone
    have hfind : (ofUnits x units).find? name = none := by
      cases hfind : (ofUnits x units).find? name with
      | none => rfl
      | some y =>
        obtain ⟨u, hu, hdef⟩ := defined_of_find? hfind
        exact absurd hdef (hnone u hu)
    rw [usageCount, hfind]
    rfl

/-- `T` at the seam of two units, and within longer words. -/
def seamUnits : List SourceUnit :=
  [.ofText "a" ['k', ' ', 'T'], .ofText "b" ['T', '2', ' ', 'T', 'é', ' ', 'T']]

set_option maxRecDepth 20000 in
theorem usageCount_seamUnits :
    (∃ u ∈ seamUnits, ['T'] ∈ definitions kindLexicon u.text) ∧
      (∀ u ∈ seamUnits, ['T', '2'] ∉ definitions kindLexicon u.text) ∧
      (ofUnits kindLexicon seamUnits).usageCount ['T'] = 2 ∧
      (ofUnits kindLexicon seamUnits).usageCount ['T', '2'] = 0 := by
  have ha : definitions kindLexicon ['k', ' ', 'T'] = [['T']] := by cbv
  have hb : definitions kindLexicon ['T', '2', ' ', 'T', 'é', ' ', 'T'] = [] := by cbv
  have hname : ∃ u ∈ seamUnits, ['T'] ∈ definitions kindLexicon u.text := by
    simp [seamUnits, SourceUnit.ofText, ha]
  have hnone : ∀ u ∈ seamUnits, ['T', '2'] ∉ definitions kindLexicon u.text := by
    simp [seamUnits, SourceUnit.ofText, ha, hb]
  have hcount : Text.positions ['T'] (Text.unlines (seamUnits.map (·.text))) = 2 := by cbv
  exact ⟨hname, hnone, ((usageCount_eq_positions _ _ _).1 hname).trans hcount,
    (usageCount_eq_positions _ _ _).2 hnone⟩

end SymbolIndex

end Declutter
