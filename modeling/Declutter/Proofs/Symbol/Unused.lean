import Mathlib
import Declutter.Proofs.Ordered.Members
import Declutter.Proofs.Symbol.Capture
import Declutter.Symbol.Index

/-!
# What likely unused means

The index compares two numbers of the whole corpus: how often a name is mentioned, and how many
files define it. `isLikelyUnused_iff` reads the comparison unit by unit: every unit that defines the
name has it once, and no other unit has it. For each unit that defines it has it at least once, and
the sums can only meet where there is nothing to spare (`sum_le_countP_iff`).
-/

namespace Declutter

open Declutter.Symbol

variable {x : Lexicon} {units : List SourceUnit} {name : Text}

theorem countP_le_sum {α : Type} {p : α → Bool} {f : α → Nat} {l : List α}
    (h : ∀ a ∈ l, p a → 1 ≤ f a) : l.countP p ≤ (l.map f).sum := by
  induction l with
  | nil => simp
  | cons a l ih =>
    obtain ⟨ha, hl⟩ := List.forall_mem_cons.1 h
    have hle := ih hl
    rw [List.countP_cons, List.map_cons, List.sum_cons]
    split
    · next hp => have := ha hp; omega
    · omega

/-- A sum does not exceed the number of terms that must be positive only if these are one, and the
others zero. -/
theorem sum_le_countP_iff {α : Type} {p : α → Bool} {f : α → Nat} {l : List α}
    (h : ∀ a ∈ l, p a → 1 ≤ f a) :
    (l.map f).sum ≤ l.countP p ↔ ∀ a ∈ l, f a = if p a then 1 else 0 := by
  induction l with
  | nil => simp
  | cons a l ih =>
    obtain ⟨ha, hl⟩ := List.forall_mem_cons.1 h
    have hle := countP_le_sum hl
    have hrest := ih hl
    rw [List.forall_mem_cons, ← hrest, List.countP_cons, List.map_cons, List.sum_cons]
    split
    · next hp => have := ha hp; omega
    · omega

namespace SymbolIndex

/-- What the index has on a defined name. -/
theorem find?_ofUnits (h : ∃ u ∈ units, name ∈ definitions x u.text) :
    (ofUnits x units).find? name = some
      { name
        files := Ordered.ofList
          ((units.filter fun u => (definitions x u.text).contains name).map (·.display))
        mentions := (units.map fun u => u.text.words.count name).sum } := by
  obtain ⟨u, hu, hname⟩ := h
  have hmem : name ∈ Ordered.ofList
      ((units.map fun u => (u.display, definitions x u.text)).flatMap (·.2)) := by
    rw [Ordered.mem_ofList, List.mem_flatMap]
    exact ⟨_, List.mem_map_of_mem hu, hname⟩
  unfold find? ofUnits
  simp only [List.find?_map, Function.comp_def]
  rw [find?_eq_some_of_unique (p := (· == name)) hmem (beq_self_eq_true name)
    fun n _ hn => eq_of_beq hn]
  simp only [Option.map_some, List.filter_map, List.map_map, List.count_flatMap]
  rfl

theorem defined_of_find? {y : Symbol} (h : (ofUnits x units).find? name = some y) :
    ∃ u ∈ units, name ∈ definitions x u.text := by
  obtain ⟨n, hn, rfl⟩ := List.mem_map.1 (List.mem_of_find?_eq_some h)
  obtain rfl : n = name := by simpa using List.find?_some h
  rw [Ordered.mem_ofList, List.mem_flatMap] at hn
  obtain ⟨d, hd, hn⟩ := hn
  obtain ⟨u, hu, rfl⟩ := List.mem_map.1 hd
  exact ⟨u, hu, hn⟩

/-- **Likely unused** is a name that every unit that defines it mentions once, and no other unit
mentions. -/
theorem isLikelyUnused_iff (hpaths : (units.map (·.display)).Nodup)
    (hwhole : ∀ u ∈ units, ∀ y ∈ captures x u.text, ∀ c ∈ y.2.head?, isWord c = false)
    (hname : ∃ u ∈ units, name ∈ definitions x u.text) :
    (ofUnits x units).isLikelyUnused name ↔
      (∀ u ∈ units, name ∈ definitions x u.text → u.text.words.count name = 1) ∧
      (∀ u ∈ units, name ∉ definitions x u.text → u.text.words.count name = 0) := by
  have hmention : ∀ u ∈ units, (definitions x u.text).contains name →
      1 ≤ u.text.words.count name := by
    intro u hu hdef
    rw [List.contains_iff_mem, definitions_eq] at hdef
    obtain ⟨⟨_, after⟩, hcap, rfl⟩ := List.mem_map.1 hdef
    exact List.count_pos_iff.2 (mem_words_of_mem_captures hcap (hwhole u hu _ hcap))
  have hfiles : (Ordered.ofList
      ((units.filter fun u => (definitions x u.text).contains name).map (·.display))).length =
        units.countP fun u => (definitions x u.text).contains name := by
    have hsub := List.filter_sublist (p := fun u => (definitions x u.text).contains name) (l := units)
    rw [(Ordered.ofList_perm (hpaths.sublist (hsub.map _))).length_eq, List.length_map,
      List.countP_eq_length_filter]
  rw [isLikelyUnused, find?_ofUnits hname, Option.any_some, Symbol.isLikelyUnused,
    decide_eq_true_iff, hfiles, sum_le_countP_iff hmention]
  simp only [List.contains_iff_mem]
  constructor
  · intro h
    exact ⟨fun u hu hdef => (h u hu).trans (if_pos hdef),
      fun u hu hdef => (h u hu).trans (if_neg hdef)⟩
  · rintro ⟨hone, hzero⟩ u hu
    split
    · next hdef => exact hone u hu hdef
    · next hdef => exact hzero u hu hdef

/-- A lexicon with one keyword, and no markers. -/
def kindLexicon : Lexicon :=
  { blockOpen := [], blockClose := [], docLine := [], lineComment := [], modifiers := [],
    keywords := [['k']] }

/-- Two units that define `T`, and one that has a longer word. -/
def kindUnits : List SourceUnit :=
  [.ofText "a" ['k', ' ', 'T', ';'], .ofText "b" ['(', 'k', '\t', 'T', ')'], .ofText "c" ['T', '2']]

theorem isLikelyUnused_kindUnits :
    (kindUnits.map (·.display)).Nodup ∧
      (∀ u ∈ kindUnits, ∀ y ∈ captures kindLexicon u.text, ∀ c ∈ y.2.head?, isWord c = false) ∧
      (∃ u ∈ kindUnits, ['T'] ∈ definitions kindLexicon u.text) ∧
      (ofUnits kindLexicon kindUnits).isLikelyUnused ['T'] := by
  have hpaths : (kindUnits.map (·.display)).Nodup := by
    have hdisplay : kindUnits.map (·.display) = [['a'], ['b'], ['c']] := by cbv
    rw [hdisplay]
    decide
  have ha : captures kindLexicon ['k', ' ', 'T', ';'] = [(['T'], [';'])] := by cbv
  have hb : captures kindLexicon ['(', 'k', '\t', 'T', ')'] = [(['T'], [')'])] := by cbv
  have hc : captures kindLexicon ['T', '2'] = [] := by cbv
  have hwhole : ∀ u ∈ kindUnits, ∀ y ∈ captures kindLexicon u.text, ∀ c ∈ y.2.head?,
      isWord c = false := by
    have hedges : isWord ';' = false ∧ isWord ')' = false := by decide
    simpa [kindUnits, SourceUnit.ofText, ha, hb, hc] using hedges
  have hname : ∃ u ∈ kindUnits, ['T'] ∈ definitions kindLexicon u.text := by
    simp [kindUnits, SourceUnit.ofText, definitions_eq, ha]
  have hcounts : kindUnits.map (fun u => u.text.words.count ['T']) = [1, 1, 0] := by cbv
  refine ⟨hpaths, hwhole, hname, (isLikelyUnused_iff hpaths hwhole hname).2 ?_⟩
  simpa [kindUnits, SourceUnit.ofText, definitions_eq, ha, hb, hc, and_assoc] using hcounts

end SymbolIndex

end Declutter
