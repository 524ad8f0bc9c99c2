import Mathlib
import Declutter.Proofs.Symbol.Unused

/-!
# Definitions and mentions

A definition gives the ASCII characters of a name, and mentions are counted by words, which may have
other characters too. So where a name is defined, a word begins with it (`mem_words_of_captures`),
but this is a mention of the name only if the word ends with it as well. The files that have such a
definition are what the number of mentions is sure to reach (`definingFiles_mentioned`). A name that
is only defined within longer words is not mentioned at all (`definingFiles_accented`).
-/

namespace Declutter

open Declutter.Symbol

variable {x : Lexicon} {units : List SourceUnit} {name after s : Text} {files : List Text}

namespace Symbol

/-- Where a name is defined, a word begins with it. -/
theorem mem_words_of_captures (h : (name, after) ∈ captures x s) :
    name ++ after.takeWhile isWord ∈ s.words := by
  obtain ⟨front, b, hs, hb, hne, hname⟩ := capturesFrom_eq_append h
  have hword : ∀ c ∈ name ++ after.takeWhile isWord, isWord c := by
    intro c hc
    rcases List.mem_append.1 hc with hc | hc
    · exact isWord_of_isNameChar (hname c hc)
    · exact List.all_eq_true.1 List.all_takeWhile c hc
  have hsplit : name ++ after = name ++ after.takeWhile isWord ++ after.dropWhile isWord := by
    rw [List.append_assoc, List.takeWhile_append_dropWhile]
  rw [hs, Text.words_append_cons (not_isWord_of_isBlank hb), hsplit,
    Text.words_append (by simp [hne]) hword (Text.not_isWord_of_dropWhile after)]
  simp

/-- Whether a unit defines a name somewhere with no word character behind it. -/
def definesWhole (x : Lexicon) (name : Text) (u : SourceUnit) : Bool :=
  (captures x u.text).any fun y => y.1 == name && !y.2.head?.any isWord

theorem mem_words_of_definesWhole {u : SourceUnit} (h : definesWhole x name u) :
    name ∈ u.text.words := by
  obtain ⟨⟨n, after⟩, hcap, hwhole⟩ := List.any_eq_true.1 h
  simp only [Bool.and_eq_true, beq_iff_eq, Bool.not_eq_true', Option.any_eq_false] at hwhole
  obtain ⟨rfl, hafter⟩ := hwhole
  apply mem_words_of_mem_captures hcap
  intro c hc
  simpa using hafter c hc

end Symbol

namespace SymbolIndex

/-- The index has a name that is defined, with the files of the units that define it. -/
theorem definingFiles?_ofUnits (h : (ofUnits x units).definingFiles? name = some files) :
    (∃ u ∈ units, name ∈ definitions x u.text) ∧
      files = Ordered.ofList
        ((units.filter fun u => (definitions x u.text).contains name).map (·.display)) := by
  obtain ⟨y, hy, rfl⟩ := Option.map_eq_some_iff.1 h
  have hname := defined_of_find? hy
  rw [find?_ofUnits hname] at hy
  cases hy
  exact ⟨hname, rfl⟩

/-- Distinct files with a unit that mentions the name are no more than the mentions. -/
theorem length_le_usageCount (hname : ∃ u ∈ units, name ∈ definitions x u.text)
    (hnodup : files.Nodup)
    (hfiles : ∀ file ∈ files, ∃ u ∈ units, u.display = file ∧ name ∈ u.text.words) :
    files.length ≤ (ofUnits x units).usageCount name := by
  let mentions : SourceUnit → Nat := fun u => u.text.words.count name
  let speaking := units.filter fun u => 1 ≤ mentions u
  have hsub : files ⊆ speaking.map (·.display) := by
    intro file hfile
    obtain ⟨u, hu, hdisplay, hword⟩ := hfiles file hfile
    refine List.mem_map.2 ⟨u, List.mem_filter.2 ⟨hu, ?_⟩, hdisplay⟩
    exact decide_eq_true (List.count_pos_iff.2 hword)
  calc files.length
    _ ≤ (speaking.map (·.display)).length := (hnodup.subperm hsub).length_le
    _ = units.countP fun u => 1 ≤ mentions u := by
      rw [List.length_map, List.countP_eq_length_filter]
    _ ≤ (units.map mentions).sum := countP_le_sum fun u _ hu => of_decide_eq_true hu
    _ = (ofUnits x units).usageCount name := by
      rw [usageCount, find?_ofUnits hname]
      rfl

/-- Whether a unit with the path `file` defines a name somewhere with no word character behind it. -/
def definedWholeIn (x : Lexicon) (units : List SourceUnit) (name file : Text) : Bool :=
  units.any fun u => u.display == file && definesWhole x name u

/-- **What is defined is mentioned**, as far as words go: in each file that defines a name, a word
begins with it where it is defined. A file that defines it with no word character behind mentions
it, and the index counts no fewer mentions than there are such files. -/
theorem definingFiles_mentioned (h : (ofUnits x units).definingFiles? name = some files) :
    (∀ file ∈ files, ∃ u ∈ units, u.display = file ∧
      ∃ after, (name, after) ∈ captures x u.text ∧ name ++ after.takeWhile isWord ∈ u.text.words) ∧
    (∀ file ∈ files, definedWholeIn x units name file →
      ∃ u ∈ units, u.display = file ∧ name ∈ u.text.words) ∧
    (files.filter (definedWholeIn x units name)).length ≤ (ofUnits x units).usageCount name := by
  obtain ⟨hname, rfl⟩ := definingFiles?_ofUnits h
  have hwhole : ∀ file, definedWholeIn x units name file →
      ∃ u ∈ units, u.display = file ∧ name ∈ u.text.words := by
    intro file hfile
    obtain ⟨u, hu, hdef⟩ := List.any_eq_true.1 hfile
    rw [Bool.and_eq_true, beq_iff_eq] at hdef
    exact ⟨u, hu, hdef.1, mem_words_of_definesWhole hdef.2⟩
  refine ⟨?_, fun file _ => hwhole file, ?_⟩
  · intro file hfile
    rw [Ordered.mem_ofList] at hfile
    obtain ⟨u, hu, rfl⟩ := List.mem_map.1 hfile
    obtain ⟨hmem, hdef⟩ := List.mem_filter.1 hu
    rw [List.contains_iff_mem, definitions_eq] at hdef
    obtain ⟨⟨_, after⟩, hcap, rfl⟩ := List.mem_map.1 hdef
    exact ⟨u, hmem, rfl, after, hcap, mem_words_of_captures hcap⟩
  · apply length_le_usageCount hname ((Ordered.nodup_ofList _).filter _)
    exact fun file hfile => hwhole file (List.mem_filter.1 hfile).2

/-- Two units that define `T`, one of them at the front of a longer word. -/
def frontUnits : List SourceUnit :=
  [.ofText "a" ['k', ' ', 'T', ';'], .ofText "b" ['k', ' ', 'T', 'é']]

set_option maxRecDepth 20000 in
theorem definingFiles_mentioned_frontUnits :
    (ofUnits kindLexicon frontUnits).definingFiles? ['T'] = some [['a'], ['b']] ∧
      (∃ u ∈ frontUnits, u.display = ['b'] ∧ ∃ after, (['T'], after) ∈ captures kindLexicon u.text ∧
        ['T'] ++ after.takeWhile isWord ∈ u.text.words) ∧
      (∃ u ∈ frontUnits, u.display = ['a'] ∧ ['T'] ∈ u.text.words) ∧
      1 ≤ (ofUnits kindLexicon frontUnits).usageCount ['T'] := by
  have h : (ofUnits kindLexicon frontUnits).definingFiles? ['T'] = some [['a'], ['b']] := by cbv
  have hwhole : [['a'], ['b']].filter (definedWholeIn kindLexicon frontUnits ['T']) = [['a']] := by
    cbv
  have ha : definedWholeIn kindLexicon frontUnits ['T'] ['a'] := by cbv
  obtain ⟨hfront, hmention, hcount⟩ := definingFiles_mentioned h
  rw [hwhole] at hcount
  exact ⟨h, hfront _ (by simp), hmention _ (by simp) ha, hcount⟩

/-- A unit that defines a type whose name has a letter beyond ASCII. -/
def accentedUnits : List SourceUnit := [.ofText "a.cs" "class Café \x7b\x7d".toList]

set_option maxRecDepth 20000 in
/-- The name is recorded without that letter, and nothing mentions it then. -/
theorem definingFiles_accented :
    (ofUnits .csharp accentedUnits).definingFiles? "Caf".toList = some ["a.cs".toList] ∧
      (∀ u ∈ accentedUnits, "Caf".toList ∉ u.text.words) ∧
      (ofUnits .csharp accentedUnits).usageCount "Caf".toList = 0 := by
  have hwords : accentedUnits.map (·.text.words) = [["class".toList, "Café".toList]] := by cbv
  refine ⟨by cbv, ?_, by cbv⟩
  intro u hu hmem
  have hin : u.text.words ∈ [["class".toList, "Café".toList]] :=
    hwords ▸ List.mem_map_of_mem hu
  rw [List.mem_singleton.1 hin] at hmem
  exact absurd hmem (by decide)

end SymbolIndex

end Declutter
