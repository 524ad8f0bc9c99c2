import Mathlib
import Declutter.Proofs.Source.Search
import Declutter.Proofs.Text.ByteOrder

/-!
# What a search finds

`findSources_exact`: a search finds the files that can be reached from its root through directories,
that have the extension of a source and that are not in the directory left out. It lists them in the
order of their paths, component by component and byte by byte.

The way to a file goes down by names, so the directories on it are those that the front of its names
leads to, and each is where its own path leads (`resolve?_descend`). So a directory is left out by
where its path leads (`sourceBelow_iff`).
-/

namespace Declutter

open Disk

variable {c : Config} {d : Disk} {skip : Option Path} {root : Path} {place : Place}
  {names : List Text} {e : Entry} {files : List SourceFile}

/-! ## Extensions -/

namespace Path

theorem nameExtension?_append (stem : Text) {ext : Text} (h : '.' ∉ ext) :
    nameExtension? (stem ++ '.' :: ext) = if stem = [] then none else some ext := by
  have hdrop : (stem ++ '.' :: ext).reverse.dropWhile (· != '.') = '.' :: stem.reverse := by
    have hrev : (stem ++ '.' :: ext).reverse = ext.reverse ++ '.' :: stem.reverse := by simp
    rw [hrev, List.dropWhile_append_of_pos, List.dropWhile_cons_of_neg (by simp)]
    intro a ha
    have hne : a ≠ '.' := by
      rintro rfl
      exact h (List.mem_reverse.1 ha)
    simpa using hne
  have hext : (stem ++ '.' :: ext).drop (stem.length + 1) = ext := by
    rw [← List.drop_drop, List.drop_left]
    rfl
  unfold nameExtension?
  rw [hdrop]
  simp only [List.drop_one, List.tail_cons, List.reverse_eq_nil_iff, List.length_reverse, hext]

theorem nameExtension?_of_not_mem {n : Text} (h : '.' ∉ n) : nameExtension? n = none := by
  have hdrop : n.reverse.dropWhile (· != '.') = [] := by
    rw [List.dropWhile_eq_nil_iff]
    intro a ha
    have hne : a ≠ '.' := by
      rintro rfl
      exact h (List.mem_reverse.1 ha)
    simpa using hne
  unfold nameExtension?
  rw [hdrop]
  rfl

/-- The extension of a name is what follows its last dot, if something stands before that. -/
theorem nameExtension?_eq_some_iff {n ext : Text} : nameExtension? n = some ext ↔
    ∃ stem, n = stem ++ '.' :: ext ∧ stem ≠ [] ∧ '.' ∉ ext := by
  constructor
  · intro h
    by_cases hdot : '.' ∈ n
    · obtain ⟨r, s, hn, hr⟩ := List.eq_append_cons_of_mem (List.mem_reverse.2 hdot)
      have hn : n = s.reverse ++ '.' :: r.reverse := by
        rw [← List.reverse_reverse n, hn]
        simp
      have hext : '.' ∉ r.reverse := by rwa [List.mem_reverse]
      rw [hn, nameExtension?_append _ hext] at h
      split at h
      · cases h
      · next hstem =>
        cases h
        exact ⟨_, hn, hstem, hext⟩
    · rw [nameExtension?_of_not_mem hdot] at h
      cases h
  · rintro ⟨stem, rfl, hstem, hdot⟩
    rw [nameExtension?_append stem hdot, if_neg hstem]

theorem extension?_join_names (ht : root.text ≠ []) (hne : names ≠ [])
    (hn : ∀ n ∈ names, IsName n) :
    (root.join ⟨[ '/' ].intercalate names⟩).extension? = nameExtension? (names.getLast hne) := by
  unfold extension? fileName?
  rw [components_join_names ht hn, List.getLast?_append_of_ne_nil _ (by simpa using hne),
    List.getLast?_map, List.getLast?_eq_some_getLast hne]
  rfl

/-- The components of a path as bytes, which is how paths are compared. -/
def byteKey (p : Path) : List (List UInt8) := p.components.map (·.text.utf8)

theorem byteKey_names (hn : ∀ n ∈ names, IsName n) :
    (⟨[ '/' ].intercalate names⟩ : Path).byteKey = names.map (·.utf8) := by
  rw [byteKey, (components_names hn).2, List.map_map]
  rfl

end Path

/-! ## The way down -/

namespace Disk

/-- What is met on the way down from a place, through directories only. -/
inductive Reaches (d : Disk) (place : Place) : List Text → Entry → Prop
  | start {e : Entry} : d.entry? place = some e → Reaches d place [] e
  | step {names : List Text} {n : Text} {e : Entry} : Reaches d place names .dir →
      d.entry? (place ++ (names ++ [n])) = some e → Reaches d place (names ++ [n]) e

/-- On a disk that is a tree, everything is met that is further down. -/
theorem reaches_iff (hd : d.WellFormed) :
    d.Reaches place names e ↔ d.entry? (place ++ names) = some e := by
  constructor
  · intro h
    cases h with
    | start h => rwa [List.append_nil]
    | step _ h => exact h
  · intro h
    induction names using List.reverseRecOn generalizing e with
    | nil => exact .start (by rwa [List.append_nil] at h)
    | append_singleton names n ih =>
      refine .step (ih ?_) h
      rw [← List.append_assoc] at h
      exact hd.dir_of_append (by simp) h

/-- A path that leads somewhere is left out if it leads to where `skip` does. -/
theorem isLeftOut_iff {path : Path} {q : Place} (hpath : d.resolve? path = some q) :
    d.isLeftOut skip path ↔ ∃ s ∈ skip, d.resolve? path = d.resolve? s := by
  simp only [isLeftOut, Option.any_eq_true, Bool.and_eq_true, beq_iff_eq, Option.mem_def]
  constructor
  · rintro ⟨s, hs, -, heq⟩
    exact ⟨s, hs, heq⟩
  · rintro ⟨s, hs, heq⟩
    refine ⟨s, hs, ?_, heq⟩
    rw [← heq, hpath]
    rfl

end Disk

/-! ## Searches -/

/-- The names lead to a source from `root`, a path to the directory at `place`. -/
structure Config.SourceBelow (c : Config) (d : Disk) (skip : Option Path) (root : Path)
    (place : Place) (names : List Text) : Prop where
  file : ∃ bytes, d.Reaches place names (.file bytes)
  extension : ∃ stem ext, names.getLast? = some (stem ++ '.' :: ext) ∧ stem ≠ [] ∧ '.' ∉ ext ∧
    ext ∈ c.extensions
  /-- No directory above leads to where `skip` does. The root does not count where it is a link. -/
  kept : ∀ above, above <+: names → above ≠ names → (above = [] → ¬ d.isLink root) →
    ∀ s ∈ skip, d.resolve? (root.descend above) ≠ d.resolve? s

theorem isSource_descend (ht : root.text ≠ []) (hne : names ≠ []) (hn : ∀ n ∈ names, IsName n) :
    c.isSource (root.descend names) ↔ ∃ stem ext, names.getLast? = some (stem ++ '.' :: ext) ∧
      stem ≠ [] ∧ '.' ∉ ext ∧ ext ∈ c.extensions := by
  rw [Config.isSource, Path.descend_eq_join root hne hn, Path.extension?_join_names ht hne hn,
    Option.any_eq_true, List.getLast?_eq_some_getLast hne]
  simp only [Path.nameExtension?_eq_some_iff, decide_eq_true_eq, Option.some.injEq]
  constructor
  · rintro ⟨ext, ⟨stem, hlast, hstem, hdot⟩, hext⟩
    exact ⟨stem, ext, hlast, hstem, hdot, hext⟩
  · rintro ⟨stem, ext, hlast, hstem, hdot, hext⟩
    exact ⟨ext, ⟨stem, hlast, hstem, hdot⟩, hext⟩

/-- What is kept of a file is told by the paths of the directories above it. -/
theorem sourceBelow_iff (hd : d.WellFormed) (hroot : d.resolve? root = some place)
    (hdir : d.entry? place = some .dir) :
    c.SourceBelow d skip root place names ↔ names ≠ [] ∧
      (∃ data, d.entry? (place ++ names) = some (.file data)) ∧ c.isSource (root.descend names) ∧
      ∀ above, above <+: names → above ≠ names → (above = [] → ¬ d.isLink root) →
        ¬ d.isLeftOut skip (root.descend above) := by
  have ht := (resolve?_eq_some_iff.1 hroot).1
  have hne : ∀ data, d.entry? (place ++ names) = some (.file data) → names ≠ [] := by
    rintro data hfile rfl
    rw [List.append_nil, hdir] at hfile
    cases hfile
  -- a directory on the way is where its path leads, so its path leads somewhere
  have habove : ∀ data, d.entry? (place ++ names) = some (.file data) → ∀ above, above <+: names →
      above ≠ names → (¬ d.isLeftOut skip (root.descend above) ↔
        ∀ s ∈ skip, d.resolve? (root.descend above) ≠ d.resolve? s) := by
    rintro data hfile above ⟨t, rfl⟩ hneq
    rw [← List.append_assoc] at hfile
    have hres := resolve?_descend hd hroot (e := .dir) (hd.dir_of_append ?_ hfile) (by simp)
    · rw [isLeftOut_iff hres]
      push Not
      rfl
    · rintro rfl
      exact hneq (List.append_nil _).symm
  constructor
  · rintro ⟨⟨data, hfile⟩, hext, hkept⟩
    rw [reaches_iff hd] at hfile
    have hnil := hne data hfile
    refine ⟨hnil, ⟨data, hfile⟩, (isSource_descend ht hnil (hd.isName_of_append hfile)).2 hext, ?_⟩
    intro above hpre hneq hlink
    exact (habove data hfile above hpre hneq).2 (hkept above hpre hneq hlink)
  · rintro ⟨hnil, ⟨data, hfile⟩, hext, hkept⟩
    refine ⟨⟨data, (reaches_iff hd).2 hfile⟩,
      (isSource_descend ht hnil (hd.isName_of_append hfile)).1 hext, ?_⟩
    intro above hpre hneq hlink
    exact (habove data hfile above hpre hneq).1 (hkept above hpre hneq hlink)

theorem mem_findSources_iff (hd : d.WellFormed) (hroot : d.resolve? root = some place)
    (h : c.findSources d skip root = .ok files) {f : SourceFile} :
    f ∈ files ↔ ∃ names, c.SourceBelow d skip root place names ∧
      f.relative = ⟨[ '/' ].intercalate names⟩ ∧ f.path = root.join f.relative := by
  obtain ⟨place', hplace, hdir, rfl⟩ := findSources_parts hd h
  obtain rfl : place = place' := Option.some.inj (hroot.symm.trans hplace)
  rw [List.mem_filterMap]
  constructor
  · rintro ⟨⟨names, e⟩, hmem, hsome⟩
    obtain ⟨hne, he⟩ := mem_within.1 hmem
    obtain ⟨⟨data, rfl⟩, hsource, hkept, rfl⟩ := (foundFrom?_eq_some_iff hne).1 hsome
    refine ⟨names, (sourceBelow_iff hd hroot hdir).2 ⟨hne, ⟨data, he⟩, hsource, hkept⟩, rfl, ?_⟩
    exact Path.descend_eq_join root hne (hd.isName_of_append he)
  · rintro ⟨names, hbelow, hrel, hpath⟩
    obtain ⟨hne, ⟨data, he⟩, hsource, hkept⟩ := (sourceBelow_iff hd hroot hdir).1 hbelow
    refine ⟨(names, .file data), mem_within.2 ⟨hne, he⟩,
      (foundFrom?_eq_some_iff hne).2 ⟨⟨data, rfl⟩, hsource, hkept, ?_⟩⟩
    rw [Path.descend_eq_join root hne (hd.isName_of_append he), ← hrel, ← hpath]

theorem findSources_increasing (hd : d.WellFormed) (h : c.findSources d skip root = .ok files) :
    files.Pairwise fun f g => f.relative.byteKey < g.relative.byteKey := by
  have hkey : ∀ f ∈ files, f.relative.byteKey = f.relative.names.map (·.utf8) := by
    intro f hf
    obtain ⟨place, -, hfound⟩ := foundIn_of_mem hd h hf
    conv_lhs => rw [hfound.relative, Path.byteKey_names hfound.isName]
  refine (findSources_names_increasing hd h).imp_of_mem ?_
  intro f g hf hg hlt
  rw [hkey f hf, hkey g hg]
  exact List.map_lt (fun _ _ => Text.utf8_lt) hlt

/-- **A search is exact.** It finds the sources below its root, each once and in increasing order of
their paths within the tree, and nothing else. -/
theorem findSources_exact (c : Config) (skip : Option Path) (hd : d.WellFormed)
    (hroot : d.resolve? root = some place) (hdir : d.entry? place = some .dir) :
    ∃ files, c.findSources d skip root = .ok files ∧
      files.Pairwise (fun f g => f.relative.byteKey < g.relative.byteKey) ∧
      ∀ f, f ∈ files ↔ ∃ names, c.SourceBelow d skip root place names ∧
        f.relative = ⟨[ '/' ].intercalate names⟩ ∧ f.path = root.join f.relative := by
  cases h : c.findSources d skip root with
  | error e => exact absurd (isDir_iff.2 ⟨place, hroot, hdir⟩) (findSources_error_iff.1 h).2
  | ok files =>
    exact ⟨files, rfl, findSources_increasing hd h, fun f => mem_findSources_iff hd hroot h⟩

/-- A tree behind a link, with a directory that is named like a source, a link to it, and a
directory that is left out. -/
def treeDisk : Disk :=
  ((((((((withWorkDir [['w']]).put [['w'], ['i']] .dir).put [['w'], ['i'], "A.cs".toList]
    (.file { bytes := [97] })).put [['w'], ['i'], "D.cs".toList] .dir).put
      [['w'], ['i'], "D.cs".toList, "B.cs".toList] (.file { bytes := [98] })).put
        [['w'], ['i'], "l.cs".toList] (.link "D.cs")).put [['w'], ['i'], ['o']] .dir).put
          [['w'], ['i'], ['o'], "C.cs".toList] (.file { bytes := [99] })).put [['w'], ['r']]
            (.link "i")

theorem findSources_treeDisk :
    treeDisk.WellFormed ∧ treeDisk.resolve? "r" = some [['w'], ['i']] ∧
      treeDisk.entry? [['w'], ['i']] = some .dir ∧
      Config.standard.findSources treeDisk (some "i/o") "r" =
        .ok [⟨"r/A.cs", "A.cs"⟩, ⟨"r/D.cs/B.cs", "D.cs/B.cs"⟩] ∧
      Path.byteKey "A.cs" < Path.byteKey "D.cs/B.cs" ∧
      (∃ names, Config.standard.SourceBelow treeDisk (some "i/o") "r" [['w'], ['i']] names ∧
        (("D.cs/B.cs" : String) : Path) = ⟨[ '/' ].intercalate names⟩) ∧
      ¬ Config.standard.SourceBelow treeDisk (some "i/o") "r" [['w'], ['i']]
        [['o'], "C.cs".toList] := by
  have hd : treeDisk.WellFormed := by decide
  have hroot : treeDisk.resolve? "r" = some [['w'], ['i']] := by cbv
  have hdir : treeDisk.entry? [['w'], ['i']] = some .dir := by decide
  have hfiles : Config.standard.findSources treeDisk (some "i/o") "r" =
      .ok [⟨"r/A.cs", "A.cs"⟩, ⟨"r/D.cs/B.cs", "D.cs/B.cs"⟩] := by cbv
  obtain ⟨files, hok, horder, hmem⟩ := findSources_exact .standard (some "i/o") hd hroot hdir
  obtain rfl := Except.ok.inj (hfiles.symm.trans hok)
  refine ⟨hd, hroot, hdir, hfiles, ?_, ?_, ?_⟩
  · exact List.rel_of_pairwise_cons horder (List.mem_singleton_self _)
  · obtain ⟨names, hbelow, hrel, -⟩ := (hmem ⟨"r/D.cs/B.cs", "D.cs/B.cs"⟩).1 (by simp)
    exact ⟨names, hbelow, hrel⟩
  · intro hbelow
    have hin := (hmem ⟨"r/o/C.cs", "o/C.cs"⟩).2 ⟨_, hbelow, by decide, by decide⟩
    exact absurd hin (by decide)

end Declutter
