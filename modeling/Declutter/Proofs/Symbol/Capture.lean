import Declutter.Proofs.Text.Words
import Declutter.Symbol.Definition

/-!
# Names where they are defined

`captures x s`: the names that `definitions` finds in a text, each with the text that follows it
(`definitions_eq`). A blank stands before each of them (`capturesFrom_eq_append`), so a name that no
word character follows is a word of the text (`mem_words_of_mem_captures`).
-/

namespace Declutter.Symbol

open Text

variable {keywords : List Text} {left : Option Char} {s k name after : Text} {x : Lexicon}

/-- The names defined in a text whose left neighbour is `left`, and what follows each. -/
def capturesFrom (keywords : List Text) (left : Option Char) : Text → List (Text × Text)
  | [] => []
  | c :: s =>
    match _h : definitionAt? keywords left (c :: s) with
    | some (name, after) => (name, after) :: capturesFrom keywords name.getLast? after
    | none => capturesFrom keywords (some c) s
termination_by s => s.length
decreasing_by
  · exact length_lt_of_definitionAt? _h
  · simp

/-- The names defined in a text, and what follows each. -/
def captures (x : Lexicon) (s : Text) : List (Text × Text) :=
  capturesFrom (x.keywords.filter (· ≠ [])) none s

theorem definitionsFrom_eq (keywords : List Text) (left : Option Char) (s : Text) :
    definitionsFrom keywords left s = (capturesFrom keywords left s).map (·.1) := by
  fun_induction capturesFrom keywords left s with
  | case1 => rw [definitionsFrom]; rfl
  | case2 left c s name after h ih =>
    rw [definitionsFrom, List.map_cons, ← ih]
    split
    · next h' => rw [h] at h'; cases h'; rfl
    · next h' => rw [h] at h'; cases h'
  | case3 left c s h ih =>
    rw [definitionsFrom, ← ih]
    split
    · next h' => rw [h] at h'; cases h'
    · rfl

theorem definitions_eq (x : Lexicon) (s : Text) : definitions x s = (captures x s).map (·.1) :=
  definitionsFrom_eq ..

/-- What a keyword introduces: blanks, and then a name. -/
theorem introduced?_eq_some (h : introduced? s k = some (name, after)) : ∃ front b,
    s = front ++ b :: (name ++ after) ∧ isBlank b ∧ name ≠ [] ∧ ∀ c ∈ name, isNameChar c := by
  simp only [introduced?] at h
  split at h
  · cases h
  next rest hr =>
  split at h
  case isFalse => cases h
  next hblank =>
  split at h
  · cases h
  next c t ht =>
  split at h
  case isFalse => cases h
  next hstart =>
  obtain ⟨rfl, rfl⟩ : c :: t.takeWhile isNameChar = name ∧ t.dropWhile isNameChar = after := by
    simpa using h
  -- the gap is not empty, so it has a last blank
  have hgap : rest.takeWhile isBlank ≠ [] := by
    cases rest with
    | nil => cases hblank
    | cons b rest => simp_all
  obtain ⟨gap, b, hb⟩ : ∃ gap b, rest.takeWhile isBlank = gap ++ [b] :=
    ⟨_, _, (List.dropLast_concat_getLast hgap).symm⟩
  have hrest : rest = gap ++ b :: (c :: t) := by
    rw [← List.takeWhile_append_dropWhile (p := isBlank) (l := rest), ht, hb]
    simp
  refine ⟨k ++ gap, b, ?_, ?_, by simp, ?_⟩
  · rw [eq_append_of_isPrefixOf? hr, hrest]
    simp [List.takeWhile_append_dropWhile]
  · refine List.all_eq_true.1 (List.all_takeWhile (l := rest)) b ?_
    rw [hb]
    simp
  · intro a ha
    rcases List.mem_cons.1 ha with rfl | ha
    · exact isNameChar_of_isNameStart hstart
    · exact List.all_eq_true.1 List.all_takeWhile a ha

theorem definitionAt?_eq_some (h : definitionAt? keywords left s = some (name, after)) :
    ∃ front b, s = front ++ b :: (name ++ after) ∧ isBlank b ∧ name ≠ [] ∧
      ∀ c ∈ name, isNameChar c := by
  unfold definitionAt? at h
  split at h
  · obtain ⟨k, -, hk⟩ := List.exists_of_findSome?_eq_some h
    exact introduced?_eq_some hk
  · cases h

theorem capturesFrom_eq_append (h : (name, after) ∈ capturesFrom keywords left s) : ∃ front b,
    s = front ++ b :: (name ++ after) ∧ isBlank b ∧ name ≠ [] ∧ ∀ c ∈ name, isNameChar c := by
  fun_induction capturesFrom keywords left s with
  | case1 => cases h
  | case2 left c s name' after' hd ih =>
    rcases List.mem_cons.1 h with heq | h
    · cases heq
      exact definitionAt?_eq_some hd
    · obtain ⟨front, b, hs, -⟩ := definitionAt?_eq_some hd
      obtain ⟨front', b', hs', hrest⟩ := ih h
      refine ⟨front ++ b :: (name' ++ front'), b', ?_, hrest⟩
      rw [hs, hs']
      simp
  | case3 left c s _ ih =>
    obtain ⟨front, b, hs, hrest⟩ := ih h
    exact ⟨c :: front, b, by rw [hs]; rfl, hrest⟩

/-- **A defined name is a word**, if no word character follows it. -/
theorem mem_words_of_mem_captures (h : (name, after) ∈ captures x s)
    (hafter : ∀ c ∈ after.head?, isWord c = false) : name ∈ s.words := by
  obtain ⟨front, b, hs, hb, hne, hname⟩ := capturesFrom_eq_append h
  rw [hs, words_append_cons (not_isWord_of_isBlank hb),
    words_append hne (fun c hc => isWord_of_isNameChar (hname c hc)) hafter]
  simp

theorem mem_words_of_mem_definitions (h : name ∈ definitions x s)
    (hwhole : ∀ y ∈ captures x s, ∀ c ∈ y.2.head?, isWord c = false) : name ∈ s.words := by
  rw [definitions_eq] at h
  obtain ⟨⟨_, after⟩, hcap, rfl⟩ := List.mem_map.1 h
  exact mem_words_of_mem_captures hcap (hwhole _ hcap)

end Declutter.Symbol
