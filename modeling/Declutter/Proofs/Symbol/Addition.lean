import Mathlib
import Declutter.Proofs.Symbol.Order

/-!
# One more unit

A new unit brings mentions of a name, and at most one more file that defines it. If it defines the
name with no word character behind, it mentions it, so a new file comes with a new mention
(`filesDefining_cons_le`). Thus a name that is used stays used (`isUsed_insert`), wherever the unit
is put and whether its path is new or not.
-/

namespace Declutter.SymbolIndex

open Declutter.Symbol

variable {x : Lexicon} {units before after : List SourceUnit} {u : SourceUnit} {name : Text}

/-- The files of the units that define a name. -/
def filesDefining (x : Lexicon) (units : List SourceUnit) (name : Text) : List Text :=
  Ordered.ofList ((units.filter fun u => (definitions x u.text).contains name).map (·.display))

theorem isSome_definingFiles?_iff :
    ((ofUnits x units).definingFiles? name).isSome ↔ ∃ u ∈ units, name ∈ definitions x u.text := by
  rw [definingFiles?, Option.isSome_map]
  constructor
  · intro h
    obtain ⟨y, hy⟩ := Option.isSome_iff_exists.1 h
    exact defined_of_find? hy
  · intro h
    rw [find?_ofUnits h]
    rfl

theorem isLikelyUnused_iff_le (h : ∃ u ∈ units, name ∈ definitions x u.text) :
    (ofUnits x units).isLikelyUnused name ↔
      (units.map fun u => u.text.words.count name).sum ≤ (filesDefining x units name).length := by
  rw [isLikelyUnused, find?_ofUnits h, Option.any_some, Symbol.isLikelyUnused, decide_eq_true_iff,
    filesDefining]

/-- **Step.** A new unit adds no more files than mentions. -/
theorem filesDefining_cons_le
    (hwhole : ∀ y ∈ captures x u.text, ∀ c ∈ y.2.head?, isWord c = false)
    (units : List SourceUnit) (name : Text) :
    (filesDefining x (u :: units) name).length ≤
      (filesDefining x units name).length + u.text.words.count name := by
  by_cases hdef : name ∈ definitions x u.text
  · have hcons : filesDefining x (u :: units) name =
        Ordered.insert u.display (filesDefining x units name) := by
      rw [filesDefining, List.filter_cons_of_pos (by simpa using hdef)]
      rfl
    have hmention : 0 < u.text.words.count name :=
      List.count_pos_iff.2 (mem_words_of_mem_definitions hdef hwhole)
    have hle := Ordered.length_insert_le u.display (filesDefining x units name)
    rw [hcons]
    omega
  · rw [filesDefining, List.filter_cons_of_neg (by simpa using hdef)]
    exact Nat.le_add_right ..

/-- **Used names stay used** when a unit is added. -/
theorem isUsed_insert (hwhole : ∀ y ∈ captures x u.text, ∀ c ∈ y.2.head?, isWord c = false)
    (hdef : ((ofUnits x (before ++ after)).definingFiles? name).isSome)
    (hused : ¬ (ofUnits x (before ++ after)).isLikelyUnused name) :
    ((ofUnits x (before ++ u :: after)).definingFiles? name).isSome ∧
      ¬ (ofUnits x (before ++ u :: after)).isLikelyUnused name := by
  rw [ofUnits_eq_of_perm List.perm_middle]
  rw [isSome_definingFiles?_iff] at hdef ⊢
  have hmore : ∃ v ∈ u :: (before ++ after), name ∈ definitions x v.text := by
    obtain ⟨v, hv, hname⟩ := hdef
    exact ⟨v, List.mem_cons_of_mem _ hv, hname⟩
  refine ⟨hmore, ?_⟩
  rw [isLikelyUnused_iff_le hdef] at hused
  rw [isLikelyUnused_iff_le hmore, List.map_cons, List.sum_cons]
  have hle := filesDefining_cons_le hwhole (before ++ after) name
  omega

/-- Two units that define `T`, with one mention to spare. -/
def sparedUnits : List SourceUnit :=
  [.ofText "a" ['k', ' ', 'T', ';', 'T'], .ofText "b" ['k', ' ', 'T']]

/-- A third that defines it twice. -/
def thirdUnit : SourceUnit := .ofText "c" ['k', ' ', 'T', ';', 'k', ' ', 'T', ';']

theorem isUsed_insert_thirdUnit :
    (∀ y ∈ captures kindLexicon thirdUnit.text, ∀ c ∈ y.2.head?, isWord c = false) ∧
      ((ofUnits kindLexicon sparedUnits).definingFiles? ['T']).isSome ∧
      ¬ (ofUnits kindLexicon sparedUnits).isLikelyUnused ['T'] ∧
      ((ofUnits kindLexicon (sparedUnits.take 1 ++ thirdUnit :: sparedUnits.drop 1)).definingFiles?
        ['T']).isSome ∧
      ¬ (ofUnits kindLexicon (sparedUnits.take 1 ++ thirdUnit :: sparedUnits.drop 1)).isLikelyUnused
        ['T'] := by
  have hcaptures : captures kindLexicon thirdUnit.text =
      [(['T'], [';', 'k', ' ', 'T', ';']), (['T'], [';'])] := by cbv
  have hwhole : ∀ y ∈ captures kindLexicon thirdUnit.text, ∀ c ∈ y.2.head?, isWord c = false := by
    have hedge : isWord ';' = false := by decide
    simpa [hcaptures] using hedge
  have hdef : ((ofUnits kindLexicon sparedUnits).definingFiles? ['T']).isSome := by cbv
  have hfalse : (ofUnits kindLexicon sparedUnits).isLikelyUnused ['T'] = false := by cbv
  have hused : ¬ (ofUnits kindLexicon sparedUnits).isLikelyUnused ['T'] := by simp [hfalse]
  have hsplit : sparedUnits.take 1 ++ sparedUnits.drop 1 = sparedUnits := List.take_append_drop ..
  exact ⟨hwhole, hdef, hused, isUsed_insert hwhole (hsplit ▸ hdef) (hsplit ▸ hused)⟩

end Declutter.SymbolIndex
