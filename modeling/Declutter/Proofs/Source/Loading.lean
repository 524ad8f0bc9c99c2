import Declutter.Proofs.Source.Search

/-!
# Loading what was found

`Disk.Loads d place files units skipped`: file by file, a source is read from its place on the disk,
or it cannot be read and is counted. This is what loading the sources of a search comes to
(`loads_loadAll`), since the path of each leads to its place. It says which text each unit has, and
that every source is either read or counted (`Loads.length`).

The units that are loaded can all be written into one tree (`foundTogether_loadAll`).
-/

namespace Declutter

open Disk

variable {c : Config} {d : Disk} {skip : Option Path} {root : Path} {files : List SourceFile}
  {place : Place} {units : List SourceUnit} {skipped : Nat}

/-! ## Texts of files -/

/-- Sources at their places below a directory, of which `units` can be read, and `skipped` many
cannot. -/
inductive Disk.Loads (d : Disk) (place : Place) : List SourceFile → List SourceUnit → Nat → Prop
  | done : Loads d place [] [] 0
  | read {f files units skipped bytes} :
      d.entry? (place ++ f.relative.names) = some (.file { bytes, readable := true }) →
      Loads d place files units skipped →
      Loads d place (f :: files) ({ f with text := Text.decodeLossy bytes } :: units) skipped
  | skip {f files units skipped bytes} :
      d.entry? (place ++ f.relative.names) = some (.file { bytes, readable := false }) →
      Loads d place files units skipped → Loads d place (f :: files) units (skipped + 1)

namespace Disk.Loads

/-- Every source is read or counted. -/
theorem length (h : d.Loads place files units skipped) :
    files.length = units.length + skipped := by
  induction h with
  | done => rfl
  | read _ _ ih => simp only [List.length_cons, ih]; omega
  | skip _ _ ih => simp only [List.length_cons, ih]; omega

end Disk.Loads

/-- What is found is read from its place, if it can be read. -/
theorem read?_of_mem_findSources (hd : d.WellFormed) (hroot : d.resolve? root = some place)
    (h : c.findSources d skip root = .ok files) {f : SourceFile} (hf : f ∈ files) :
    ∃ data, d.entry? (place ++ f.relative.names) = some (.file data) ∧
      d.read? f.path = if data.readable then some data.bytes else none := by
  obtain ⟨place', hplace, hfound⟩ := foundIn_of_mem hd h hf
  obtain rfl : place = place' := Option.some.inj (hroot.symm.trans hplace)
  obtain ⟨data, he⟩ := hfound.entry
  refine ⟨data, he, ?_⟩
  rw [hfound.path, read?, find?_eq_some_iff.2 ⟨_, resolve?_descend hd hroot he (by simp), he⟩]

/-- **Loading reads the bytes on the disk.** -/
theorem loads_loadAll (hd : d.WellFormed) (hroot : d.resolve? root = some place)
    (h : c.findSources d skip root = .ok files) :
    d.Loads place files (d.loadAll files).1 (d.loadAll files).2 := by
  have hread : ∀ f ∈ files, ∃ data, d.entry? (place ++ f.relative.names) = some (.file data) ∧
      d.read? f.path = if data.readable then some data.bytes else none :=
    fun f => read?_of_mem_findSources hd hroot h
  clear h
  induction files with
  | nil => exact .done
  | cons f files ih =>
    obtain ⟨⟨⟨bytes, readable⟩, he, hf⟩, hrest⟩ := List.forall_mem_cons.1 hread
    have hload : f.load? d = (d.read? f.path).map fun bytes =>
      { f with text := Text.decodeLossy bytes } := rfl
    rw [hf] at hload
    rw [loadAll]
    cases readable with
    | true =>
      simp only [hload]
      exact .read he (ih hrest)
    | false =>
      simp only [hload]
      exact .skip he (ih hrest)

/-! ## Units of one search -/

theorem loadAll_fst (d : Disk) (files : List SourceFile) :
    (d.loadAll files).1 = files.filterMap (·.load? d) := by
  induction files with
  | nil => rfl
  | cons f files ih =>
    rw [loadAll, List.filterMap_cons, ← ih]
    cases f.load? d <;> rfl

theorem mem_loadAll {u : SourceUnit} :
    u ∈ (d.loadAll files).1 ↔ ∃ f ∈ files, f.load? d = some u := by
  rw [loadAll_fst, List.mem_filterMap]

theorem relative_of_mem_loadAll {u : SourceUnit} (h : u ∈ (d.loadAll files).1) :
    ∃ f ∈ files, u.relative = f.relative := by
  obtain ⟨f, hf, hu⟩ := mem_loadAll.1 h
  obtain ⟨bytes, -, rfl⟩ := Option.map_eq_some_iff.1 hu
  exact ⟨f, hf, rfl⟩

theorem loadAll_relative (hd : d.WellFormed) (h : c.findSources d skip root = .ok files)
    {u : SourceUnit} (hu : u ∈ (d.loadAll files).1) :
    ¬ u.relative.isAbsolute ∧ .up ∉ u.relative.components := by
  obtain ⟨f, hf, hrelative⟩ := relative_of_mem_loadAll hu
  rw [hrelative]
  exact findSources_relative hd h hf

theorem unit_eq_of_names_eq (hd : d.WellFormed) (h : c.findSources d skip root = .ok files)
    {u v : SourceUnit} (hu : u ∈ (d.loadAll files).1) (hv : v ∈ (d.loadAll files).1)
    (heq : u.relative.names = v.relative.names) : u = v := by
  obtain ⟨f, hf, hload⟩ := mem_loadAll.1 hu
  obtain ⟨g, hg, hload'⟩ := mem_loadAll.1 hv
  obtain ⟨b, -, hu⟩ := Option.map_eq_some_iff.1 hload
  obtain ⟨b', -, hv⟩ := Option.map_eq_some_iff.1 hload'
  rw [← hu, ← hv] at heq
  obtain rfl := eq_of_names_eq hd h hf hg heq
  exact Option.some.inj (hload.symm.trans hload')

/-- Neither of two sources is at or above the place of the other within their tree. -/
def SourceUnit.Apart (u v : SourceUnit) : Prop :=
  ¬ u.relative.names <+: v.relative.names ∧ ¬ v.relative.names <+: u.relative.names

instance : Std.Symm SourceUnit.Apart := ⟨fun _ _ h => ⟨h.2, h.1⟩⟩

/-- Sources as one search finds them: their paths within the tree are spelled by names, and each has
a place of its own. -/
structure FoundTogether (units : List SourceUnit) : Prop where
  ne_nil : ∀ u ∈ units, u.relative.names ≠ []
  isName : ∀ u ∈ units, ∀ n ∈ u.relative.names, IsName n
  spelled : ∀ u ∈ units, u.relative = ⟨[ '/' ].intercalate u.relative.names⟩
  apart : units.Pairwise SourceUnit.Apart

/-- **What one search finds** can be written into one tree. -/
theorem foundTogether_loadAll (hd : d.WellFormed) (h : c.findSources d skip root = .ok files) :
    FoundTogether (d.loadAll files).1 := by
  have hfound : ∀ u ∈ (d.loadAll files).1, ∃ (f : SourceFile) (place : Place),
      u.relative = f.relative ∧ f.FoundIn d root place := by
    intro u hu
    obtain ⟨f, hf, hrelative⟩ := relative_of_mem_loadAll hu
    obtain ⟨place, -, hfound⟩ := foundIn_of_mem hd h hf
    exact ⟨f, place, hrelative, hfound⟩
  refine ⟨fun u hu => ?_, fun u hu => ?_, fun u hu => ?_, ?_⟩
  · obtain ⟨f, place, hrelative, hfound⟩ := hfound u hu
    rw [hrelative]
    exact hfound.ne_nil
  · obtain ⟨f, place, hrelative, hfound⟩ := hfound u hu
    rw [hrelative]
    exact hfound.isName
  · obtain ⟨f, place, hrelative, hfound⟩ := hfound u hu
    rw [hrelative]
    exact hfound.relative
  · rw [loadAll_fst]
    refine List.Pairwise.filterMap _ ?_ (findSources_pairwise hd h)
    intro f g hfg u hu v hv
    obtain ⟨b, -, rfl⟩ := Option.map_eq_some_iff.1 hu
    obtain ⟨b', -, rfl⟩ := Option.map_eq_some_iff.1 hv
    exact hfg

end Declutter
