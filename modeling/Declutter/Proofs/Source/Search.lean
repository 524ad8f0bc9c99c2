import Declutter.Proofs.Source.Walk

/-!
# Sources that are found

A search fails only where there is no directory (`findSources_error_iff`). What it finds is some of
what is within its root, in the same order (`findSources_parts`, `foundFrom?_eq_some_iff`). The path
of a source within its tree is made of names (`findSources_relative`), so that it leads to the same
place in any other tree. Each has a place of its own there, and none is above another
(`findSources_pairwise`).
-/

namespace Declutter

open Disk

variable {c : Config} {d : Disk} {skip : Option Path} {root : Path} {files : List SourceFile}

/-- What a search of `root` makes of an entry, by the names that lead to it from there. -/
def Config.foundFrom? (c : Config) (d : Disk) (skip : Option Path) (root : Path)
    (x : Place × Entry) : Option SourceFile :=
  if !d.isLink root && d.isLeftOut skip root then none else c.found? d skip root [] x

/-- The directories on the way are the root, which does not count where it is a link, and those
below it. -/
theorem entersFrom_iff {names : Place} (hne : names ≠ []) :
    (∀ above, above <+: names → above ≠ names → (above = [] → ¬ d.isLink root) →
      ¬ d.isLeftOut skip (root.descend above)) ↔
    ¬ (!d.isLink root && d.isLeftOut skip root) ∧ d.enters skip root names := by
  rw [enters_iff]
  constructor
  · intro h
    refine ⟨fun hroot => ?_, fun above hpre hnil hneq => ?_⟩
    · rw [Bool.and_eq_true, Bool.not_eq_true', Bool.eq_false_iff] at hroot
      exact h [] List.nil_prefix hne.symm (fun _ => hroot.1) hroot.2
    · exact h above hpre hneq fun hc => absurd hc hnil
  · rintro ⟨hroot, hbelow⟩ above hpre hneq hlink
    by_cases hnil : above = []
    · subst hnil
      intro hskip
      have hlink : d.isLink root = false := Bool.eq_false_iff.2 (hlink rfl)
      rw [hlink] at hroot
      exact hroot hskip
    · exact hbelow above hpre hnil hneq

/-- A search keeps the files that have an extension of a source, if no directory on the way is left
out. -/
theorem foundFrom?_eq_some_iff {names : Place} (hne : names ≠ []) {e : Entry} {f : SourceFile} :
    c.foundFrom? d skip root (names, e) = some f ↔ (∃ data, e = .file data) ∧
      c.isSource (root.descend names) ∧
      (∀ above, above <+: names → above ≠ names → (above = [] → ¬ d.isLink root) →
        ¬ d.isLeftOut skip (root.descend above)) ∧
      f = ⟨root.descend names, ⟨[ '/' ].intercalate names⟩⟩ := by
  rw [entersFrom_iff hne, Config.foundFrom?]
  cases e with
  | file data =>
    by_cases hroot : (!d.isLink root && d.isLeftOut skip root) = true
    · simp [hroot]
    · simp only [hroot, Config.found?]
      simp [and_assoc, @eq_comm _ f]
  | dir => simp [Config.found?]
  | link t => simp [Config.found?]

/-- A search that does not fail keeps some of what is within its root. -/
theorem findSources_parts (hd : d.WellFormed) (h : c.findSources d skip root = .ok files) :
    ∃ place, d.resolve? root = some place ∧ d.entry? place = some .dir ∧
      files = (d.within place).filterMap (c.foundFrom? d skip root) := by
  unfold Config.findSources at h
  split at h
  · cases h
  next place hplace =>
  split at h
  · cases h
  next hdir =>
  refine ⟨place, hplace, not_not.1 hdir, ?_⟩
  unfold Config.foundFrom?
  split at h
  · next hroot =>
    cases h
    simp only [hroot, if_true]
    exact (List.filterMap_eq_nil_iff.2 fun _ _ => rfl).symm
  · next hroot =>
    cases h
    simp only [hroot]
    rw [Config.sourcesIn_eq_filterMap hd, List.append_nil]
    rfl

/-- A file is below the root of a search at its names within the tree, which its paths spell. -/
structure SourceFile.FoundIn (f : SourceFile) (d : Disk) (root : Path) (place : Place) : Prop where
  ne_nil : f.relative.names ≠ []
  isName : ∀ n ∈ f.relative.names, IsName n
  entry : ∃ data, d.entry? (place ++ f.relative.names) = some (.file data)
  relative : f.relative = ⟨[ '/' ].intercalate f.relative.names⟩
  path : f.path = root.descend f.relative.names

theorem foundIn_of_foundFrom? (hd : d.WellFormed) {place : Place} {x : Place × Entry}
    {f : SourceFile} (hx : x ∈ d.within place) (hf : c.foundFrom? d skip root x = some f) :
    f.relative.names = x.1 ∧ f.FoundIn d root place := by
  obtain ⟨names, e⟩ := x
  obtain ⟨hne, he⟩ := mem_within.1 hx
  obtain ⟨⟨data, rfl⟩, -, -, rfl⟩ := (foundFrom?_eq_some_iff hne).1 hf
  have hn := hd.isName_of_append he
  have hnames := Path.names_intercalate hn
  refine ⟨hnames, ?_⟩
  constructor <;> simp only [hnames]
  · exact hne
  · exact hn
  · exact ⟨data, he⟩

/-- What is found is a file below the directory that was searched. -/
theorem foundIn_of_mem (hd : d.WellFormed) (h : c.findSources d skip root = .ok files)
    {f : SourceFile} (hf : f ∈ files) : ∃ place, d.resolve? root = some place ∧
      f.FoundIn d root place := by
  obtain ⟨place, hplace, -, rfl⟩ := findSources_parts hd h
  obtain ⟨x, hx, hsome⟩ := List.mem_filterMap.1 hf
  exact ⟨place, hplace, (foundIn_of_foundFrom? hd hx hsome).2⟩

/-- Sources are found in the order of their names within the tree. -/
theorem findSources_names_increasing (hd : d.WellFormed)
    (h : c.findSources d skip root = .ok files) :
    files.Pairwise fun f g => f.relative.names < g.relative.names := by
  obtain ⟨place, -, -, rfl⟩ := findSources_parts hd h
  refine List.Pairwise.filterMap (R := fun x y => x ∈ d.within place ∧ y ∈ d.within place ∧
    x.1 < y.1) _ ?_ ((within_increasing d place).imp_of_mem fun hx hy hlt => ⟨hx, hy, hlt⟩)
  rintro x y ⟨hx, hy, hlt⟩ f hf g hg
  rw [(foundIn_of_foundFrom? hd hx hf).1, (foundIn_of_foundFrom? hd hy hg).1]
  exact hlt

/-- A search fails only where there is no directory to search. -/
theorem findSources_error_iff {e : Failure} :
    c.findSources d skip root = .error e ↔ e = .missingInput root ∧ ¬ d.isDir root := by
  rw [isDir_iff]
  unfold Config.findSources
  split
  · next hnone => simp [hnone, eq_comm]
  next p hp =>
  split
  · next hdir =>
    refine ⟨?_, fun h => by rw [h.1]⟩
    rintro ⟨⟩
    refine ⟨rfl, ?_⟩
    rintro ⟨q, hq, hentry⟩
    rw [hp] at hq
    cases hq
    exact hdir hentry
  · next hdir =>
    rw [not_not] at hdir
    split <;> simp [hp, hdir]

theorem isDir_of_findSources {skip : Option Path} {root : Path} {files : List SourceFile}
    (h : c.findSources d skip root = .ok files) : d.isDir root := by
  by_contra hdir
  rw [findSources_error_iff.2 ⟨rfl, hdir⟩] at h
  cases h

/-- **The path of a source within its tree** is relative and has no `..`. -/
theorem findSources_relative (hd : d.WellFormed) (h : c.findSources d skip root = .ok files)
    {f : SourceFile} (hf : f ∈ files) : ¬ f.relative.isAbsolute ∧ .up ∉ f.relative.components := by
  obtain ⟨place, -, hfound⟩ := foundIn_of_mem hd h hf
  obtain ⟨h1, h2⟩ := Path.components_names hfound.isName
  rw [hfound.relative, h2]
  exact ⟨h1, by simp⟩

/-- The names of a source within its tree tell it from the others. -/
theorem eq_of_names_eq (hd : d.WellFormed) (h : c.findSources d skip root = .ok files)
    {f g : SourceFile} (hf : f ∈ files) (hg : g ∈ files)
    (heq : f.relative.names = g.relative.names) : f = g := by
  obtain ⟨place, -, hfound⟩ := foundIn_of_mem hd h hf
  obtain ⟨place', -, hfound'⟩ := foundIn_of_mem hd h hg
  have hrelative : f.relative = g.relative := by rw [hfound.relative, hfound'.relative, heq]
  have hpath : f.path = g.path := by rw [hfound.path, hfound'.path, heq]
  cases f
  cases g
  cases hrelative
  cases hpath
  rfl

/-- No source is at or above the place of another within their tree. -/
theorem findSources_pairwise (hd : d.WellFormed) (h : c.findSources d skip root = .ok files) :
    files.Pairwise fun f g =>
      ¬ f.relative.names <+: g.relative.names ∧ ¬ g.relative.names <+: f.relative.names := by
  refine (findSources_names_increasing hd h).imp_of_mem ?_
  intro f g hf hg hlt
  obtain ⟨place, hplace, hfound⟩ := foundIn_of_mem hd h hf
  obtain ⟨place', hplace', hfound'⟩ := foundIn_of_mem hd h hg
  obtain rfl : place = place' := Option.some.inj (hplace.symm.trans hplace')
  obtain ⟨data, he⟩ := hfound.entry
  obtain ⟨data', he'⟩ := hfound'.entry
  have hplaces : place ++ f.relative.names ≠ place ++ g.relative.names := by
    intro heq
    rw [List.append_right_inj] at heq
    exact List.lt_irrefl _ (heq ▸ hlt)
  have h1 := hd.not_isPrefix he he' hplaces
  have h2 := hd.not_isPrefix he' he hplaces.symm
  rw [List.prefix_append_right_inj] at h1 h2
  exact ⟨h1, h2⟩

end Declutter
