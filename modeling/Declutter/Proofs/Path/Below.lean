import Declutter.Proofs.Path.Components

/-!
# Names below a path

A file below a directory is written to the path of the directory with some names added to it, after
the directories above it were made. `Path.below` is the path of such a directory: it has the
components of the first path, and then the names. A walk joins the names one by one instead
(`Path.descend`), which comes to joining the relative path that they spell (`descend_eq_join`).
-/

namespace Declutter

open Disk

namespace Path

variable {root : Path} {names : List Text}

/-- The path of some names below another path. -/
def below (root : Path) (names : List Text) : Path :=
  ofComponents (root.components ++ names.map .name)

theorem canonical_below (ht : root.text ≠ []) (hn : ∀ n ∈ names, IsName n) :
    Canonical (root.components ++ names.map .name) := by
  obtain ⟨c, cs, hcs⟩ := List.exists_cons_of_ne_nil (components_ne_nil ht)
  have hroot := canonical_components root
  rw [hcs] at hroot ⊢
  refine ⟨hroot.1, fun a ha => ?_⟩
  rcases List.mem_append.1 (show a ∈ cs ++ names.map .name from ha) with ha | ha
  · exact hroot.2 a ha
  · obtain ⟨n, hmem, rfl⟩ := List.mem_map.1 ha
    exact inner_name (hn n hmem)

theorem components_below (ht : root.text ≠ []) (hn : ∀ n ∈ names, IsName n) :
    (root.below names).components = root.components ++ names.map .name :=
  components_ofComponents (canonical_below ht hn)

theorem text_below (ht : root.text ≠ []) (hn : ∀ n ∈ names, IsName n) :
    (root.below names).text ≠ [] :=
  text_ofComponents_ne_nil (canonical_below ht hn) (by simp [components_ne_nil ht])

theorem steps_below (ht : root.text ≠ []) (hn : ∀ n ∈ names, IsName n) :
    (root.below names).steps = root.components.filterMap (·.step?) ++ names.map .down := by
  rw [below, steps_ofComponents (canonical_below ht hn), List.filterMap_append, List.filterMap_map]
  exact congrArg _ (congrFun List.filterMap_eq_map names)

theorem start_below (ht : root.text ≠ []) (hn : ∀ n ∈ names, IsName n) (base : Place) :
    (root.below names).start base = root.start base := by
  refine start_ofComponents (canonical_below ht hn) ?_ base
  rw [List.head?_append_of_ne_nil _ (components_ne_nil ht)]

theorem isValid_names (hn : ∀ n ∈ names, IsName n) :
    (⟨[ '/' ].intercalate names⟩ : Path).isValid := by
  simp only [isValid, decide_eq_true_eq]
  intro h0
  rcases Text.mem_intercalate h0 with h0 | ⟨n, hmem, h0⟩
  · exact absurd h0 (by decide)
  · exact (hn n hmem).2.2 h0

theorem isValid_join {p q : Path} (hp : p.isValid) (hq : q.isValid) : (p.join q).isValid := by
  simp only [isValid, decide_eq_true_eq] at hp hq ⊢
  unfold join
  split
  · exact hq
  split
  · simp [hp, hq]
  · simp [hp, hq]

theorem components_join_names (ht : root.text ≠ []) (hn : ∀ n ∈ names, IsName n) :
    (root.join ⟨[ '/' ].intercalate names⟩).components = root.components ++ names.map .name := by
  obtain ⟨habs, hcomps⟩ := components_names hn
  rw [components_join ht habs, inner_eq_names (by rw [hcomps]; simp), names_intercalate hn]

theorem isValid_below (ht : root.text ≠ []) (hv : root.isValid) (hn : ∀ n ∈ names, IsName n) :
    (root.below names).isValid := by
  refine isValid_ofComponents (isValid_join hv (isValid_names hn)) fun c hc => ?_
  rw [components_join_names ht hn]
  exact hc

theorem steps_names (hn : ∀ n ∈ names, IsName n) :
    (⟨[ '/' ].intercalate names⟩ : Path).steps = names.map .down := by
  rw [← ofComponents_names, steps_ofComponents (canonical_names hn), List.filterMap_map]
  exact congrFun List.filterMap_eq_map names

/-- A path ends as the names do that are added to it. -/
theorem text_join_names (root : Path) (hne : names ≠ []) (hn : ∀ n ∈ names, IsName n) :
    ∃ front s, (root.join ⟨[ '/' ].intercalate names⟩).text = front ++ s ∧ s ≠ [] ∧
      s.getLast? ≠ some '/' := by
  have hsplit := List.splitOn_intercalate '/' (fun n hmem => (hn n hmem).2.1) hne
  have hnil : [] ∉ names := fun hmem => absurd (hn [] hmem) (by decide)
  obtain ⟨front, hjoin⟩ : ∃ front,
      (root.join ⟨[ '/' ].intercalate names⟩).text = front ++ [ '/' ].intercalate names := by
    unfold join
    rw [if_neg (components_names hn).1]
    split
    · exact ⟨root.text, rfl⟩
    · exact ⟨root.text ++ ['/'], by simp⟩
  refine ⟨front, _, hjoin, fun hc => ?_, fun hc => ?_⟩
  · rw [hc, List.splitOn_nil] at hsplit
    exact hnil (by simp [← hsplit])
  · obtain ⟨t, ht⟩ := List.getLast?_eq_some_iff.1 hc
    rw [ht, List.splitOn_append_cons_self, List.splitOn_nil] at hsplit
    exact hnil (by simp [← hsplit])

theorem parent?_join_names (ht : root.text ≠ []) (hne : names ≠ []) (hn : ∀ n ∈ names, IsName n) :
    (root.join ⟨[ '/' ].intercalate names⟩).parent? = some (root.below names.dropLast) := by
  have hlast : (root.components ++ names.map Component.name).getLast? =
      some (.name (names.getLast hne)) := by
    rw [List.getLast?_append_of_ne_nil _ (by simpa using hne), List.getLast?_map,
      List.getLast?_eq_some_getLast hne]
    rfl
  rw [parent?, components_join_names ht hn, hlast]
  simp only
  rw [below, List.dropLast_append_of_ne_nil (by simpa using hne), List.map_dropLast]

/-! ## Names one by one -/

/-- The path of what a walk meets: the names that led to it are joined to `root` one by one. -/
def descend (root : Path) (names : List Text) : Path := names.foldl (fun p n => p.join ⟨n⟩) root

theorem join_join {n : Text} (root : Path) (hn : IsName n) {s : Text}
    (hs : ¬ (⟨s⟩ : Path).isAbsolute) : (root.join ⟨n⟩).join ⟨s⟩ = root.join ⟨n ++ '/' :: s⟩ := by
  have hne : n ≠ [] := by
    rintro rfl
    exact absurd hn (by decide)
  have hlast : ∀ t : Text, (t ++ n).getLast? ≠ some '/' := by
    intro t ht
    rw [List.getLast?_append_of_ne_nil _ hne] at ht
    exact hn.2.1 (List.mem_of_getLast? ht)
  have hrel : ∀ t : Text, ¬ (⟨n ++ t⟩ : Path).isAbsolute := by
    intro t ht
    obtain ⟨a, m, rfl⟩ := List.exists_cons_of_ne_nil hne
    obtain rfl : a = '/' := by simpa [isAbsolute] using ht
    exact hn.2.1 (List.mem_cons_self ..)
  have hrel' := hrel []
  rw [List.append_nil] at hrel'
  unfold join
  rw [if_neg hrel', if_neg (hrel _), if_neg hs]
  -- the slash between the names is not doubled, since the first name does not end in one
  split
  · rw [if_neg (by simpa [hne] using hlast root.text)]
    simp
  · have hslash := hlast (root.text ++ ['/'])
    rw [if_neg (by simpa using hslash)]
    simp

theorem descend_eq_join (root : Path) (hne : names ≠ []) (hn : ∀ n ∈ names, IsName n) :
    root.descend names = root.join ⟨[ '/' ].intercalate names⟩ := by
  induction names generalizing root with
  | nil => exact absurd rfl hne
  | cons n names ih =>
    obtain ⟨hhead, htail⟩ := List.forall_mem_cons.1 hn
    by_cases hnil : names = []
    · subst hnil
      rw [List.intercalate_singleton]
      rfl
    · rw [List.intercalate_cons_of_ne_nil hnil, List.append_assoc, List.singleton_append,
        ← join_join root hhead (components_names htail).1]
      exact ih (root.join ⟨n⟩) hnil htail

end Path

/-! ## Where names lead -/

namespace Disk

variable {d : Disk} {root : Path} {place names : Place} {e : Entry}

/-- Names that are added to the path of a directory lead to what is there, unless it is a link. -/
theorem resolve?_join_names (hd : d.WellFormed) (hroot : d.resolve? root = some place)
    (hne : names ≠ []) (h : d.entry? (place ++ names) = some e) (hlink : ∀ t, e ≠ .link t) :
    d.resolve? (root.join ⟨[ '/' ].intercalate names⟩) = some (place ++ names) := by
  have hn := hd.isName_of_append h
  have hrel := (Path.components_names hn).1
  obtain ⟨ht, hv, -⟩ := resolve?_eq_some_iff.1 hroot
  obtain ⟨m, hm, hl⟩ := leads_steps hroot
  obtain ⟨front, s, htext, hs, hslash⟩ := Path.text_join_names root hne hn
  have hends : (root.join ⟨[ '/' ].intercalate names⟩).endsInSlash = false := by
    rw [Path.endsInSlash, htext, List.getLast?_append_of_ne_nil _ hs]
    simpa using hslash
  refine resolve?_eq_some_iff.2 ⟨by simp [htext, hs],
    Path.isValid_join hv (Path.isValid_names hn), m, hm, ?_⟩
  rw [Path.fullSteps, hends, Path.start_join ht hrel, Path.steps_join ht hrel, Path.steps_names hn]
  simpa using hl.append (leads_names hd h hlink)

theorem resolve?_descend (hd : d.WellFormed) (hroot : d.resolve? root = some place)
    (h : d.entry? (place ++ names) = some e) (hlink : ∀ t, e ≠ .link t) :
    d.resolve? (root.descend names) = some (place ++ names) := by
  by_cases hne : names = []
  · subst hne
    rw [List.append_nil]
    exact hroot
  · rw [Path.descend_eq_join root hne (hd.isName_of_append h)]
    exact resolve?_join_names hd hroot hne h hlink

end Disk

end Declutter
