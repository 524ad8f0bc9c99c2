import Declutter.Disk.Basic

/-!
# Listing directories

A directory holds its children, and the tree within it is walked by going into those that are
directories. There is less within a child than within its directory (`length_within_lt`), so that
such a walk comes to an end.
-/

namespace Declutter.Disk

/-- What a directory holds, by name. -/
def children (d : Disk) (p : Place) : List (Text × Entry) :=
  (d.within p).filterMap fun (names, e) =>
    match names with
    | [n] => some (n, e)
    | _ => none

/-- An entry as it is listed from the directory `n`, which is one name further down. -/
def furtherDown? (n : Text) (x : Place × Entry) : Option (Place × Entry) :=
  match x with
  | (m :: m' :: names, e) => if m = n then some (m' :: names, e) else none
  | _ => none

theorem isPrefixOf?_append {α : Type} [BEq α] (p s q : List α) :
    (p ++ s).isPrefixOf? q = (p.isPrefixOf? q).bind s.isPrefixOf? := by
  induction p generalizing q with
  | nil => rfl
  | cons a p ih =>
    cases q with
    | nil => rfl
    | cons b q =>
      show (if a == b then (p ++ s).isPrefixOf? q else none) =
        (if a == b then p.isPrefixOf? q else none).bind s.isPrefixOf?
      split
      · exact ih q
      · rfl

theorem within_concat (d : Disk) (p : Place) (n : Text) :
    d.within (p ++ [n]) = (d.within p).filterMap (furtherDown? n) := by
  unfold within
  rw [List.filterMap_filterMap]
  congr 1
  funext ⟨q, e⟩
  simp only [isPrefixOf?_append]
  rcases p.isPrefixOf? q with _ | _ | ⟨m, names⟩
  · rfl
  · rfl
  have hfirst : [n].isPrefixOf? (m :: names) = if n == m then some names else none := rfl
  rw [Option.bind_some, Option.bind_some, hfirst]
  by_cases hm : m = n
  · subst hm
    cases names <;> simp [furtherDown?]
  · cases names <;> simp [furtherDown?, hm, Ne.symm hm]

/-- The child itself is listed in its directory only. -/
theorem length_within_lt {d : Disk} {p : Place} {n : Text} {e : Entry}
    (h : (n, e) ∈ d.children p) : (d.within (p ++ [n])).length < (d.within p).length := by
  rw [within_concat, List.length_filterMap_lt_length_iff_exists]
  obtain ⟨⟨names, e'⟩, hmem, hx⟩ := List.mem_filterMap.1 h
  simp only at hx
  split at hx
  · exact ⟨_, hmem, rfl⟩
  · cases hx

end Declutter.Disk
