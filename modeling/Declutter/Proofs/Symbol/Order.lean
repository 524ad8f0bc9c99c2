import Mathlib
import Declutter.Proofs.Symbol.Unused
import Declutter.Report

/-!
# The order of the units

Names, and the files that define them, are sets, and mentions are counted over all units. So the
index of a corpus does not depend on the order of its units (`ofUnits_eq_of_perm`), and neither does
what is read from it or printed (`ofUnits_any_order`). Units may share a path, and a unit may define
a name more than once.
-/

namespace Declutter.SymbolIndex

open Declutter.Symbol

variable {x : Lexicon} {units units' : List SourceUnit}

/-- The index of a corpus, unit by unit. -/
theorem ofUnits_eq (x : Lexicon) (units : List SourceUnit) :
    ofUnits x units = ⟨(Ordered.ofList (units.flatMap fun u => definitions x u.text)).map fun n =>
      { name := n
        files := Ordered.ofList
          ((units.filter fun u => (definitions x u.text).contains n).map (·.display))
        mentions := (units.flatMap fun u => u.text.words).count n }⟩ := by
  simp only [ofUnits, List.flatMap_map, List.filter_map, List.map_map, Function.comp_def]

theorem ofUnits_eq_of_perm (h : units.Perm units') : ofUnits x units = ofUnits x units' := by
  have hnames : Ordered.ofList (units.flatMap fun u => definitions x u.text) =
      Ordered.ofList (units'.flatMap fun u => definitions x u.text) :=
    Ordered.ofList_eq_of_mem_iff fun _ => (h.flatMap_right _).mem_iff
  have hfiles : ∀ n : Text, Ordered.ofList
      ((units.filter fun u => (definitions x u.text).contains n).map (·.display)) =
        Ordered.ofList
          ((units'.filter fun u => (definitions x u.text).contains n).map (·.display)) :=
    fun _ => Ordered.ofList_eq_of_mem_iff fun _ => ((h.filter _).map _).mem_iff
  have hmentions : ∀ n : Text, (units.flatMap fun u => u.text.words).count n =
      (units'.flatMap fun u => u.text.words).count n :=
    fun n => (h.flatMap_right _).count_eq n
  rw [ofUnits_eq, ofUnits_eq, hnames]
  simp only [hfiles, hmentions]

/-- **The order of the units does not matter**: not for the index, nor for the files that define a
name and the number of its mentions, nor for the list of likely unused types, in whatever format it
is printed. -/
theorem ofUnits_any_order (x : Lexicon) (h : units.Perm units') :
    ofUnits x units = ofUnits x units' ∧
      (∀ name, (ofUnits x units).definingFiles? name = (ofUnits x units').definingFiles? name) ∧
      (∀ name, (ofUnits x units).usageCount name = (ofUnits x units').usageCount name) ∧
      (ofUnits x units).unused = (ofUnits x units').unused ∧
      ∀ format, (ofUnits x units).unused.render format = (ofUnits x units').unused.render format := by
  have hsame : ofUnits x units = ofUnits x units' := ofUnits_eq_of_perm h
  rw [hsame]
  exact ⟨rfl, fun _ => rfl, fun _ => rfl, rfl, fun _ => rfl⟩

/-- Three units, two of them with the same path. All define `T`, one of them twice. -/
def sharedUnits : List SourceUnit :=
  [.ofText "b" ['k', ' ', 'T'], .ofText "a" ['k', ' ', 'T', ';', 'k', ' ', 'T'],
    .ofText "b" ['k', ' ', 'U', ' ', 'k', ' ', 'T']]

theorem ofUnits_sharedUnits :
    sharedUnits.Perm sharedUnits.reverse ∧
      (ofUnits kindLexicon sharedUnits.reverse).definingFiles? ['T'] = some [['a'], ['b']] ∧
      (ofUnits kindLexicon sharedUnits.reverse).usageCount ['T'] = 4 ∧
      (ofUnits kindLexicon sharedUnits.reverse).unused = ⟨[(['b'], [['U']])]⟩ := by
  have hperm : sharedUnits.Perm sharedUnits.reverse := (List.reverse_perm _).symm
  obtain ⟨-, hfiles, hcount, hunused, -⟩ := ofUnits_any_order kindLexicon hperm
  rw [← hfiles, ← hcount, ← hunused]
  exact ⟨hperm, by cbv, by cbv, by cbv⟩

end Declutter.SymbolIndex
