import Mathlib
import Declutter.Proofs.Disk.Entries
import Declutter.Proofs.Symbol.Order
import Declutter.Proofs.Text.ByteOrder

/-!
# The index turned around

The index has the files of each name, and the list of likely unused types has the names of each
file. `unused_inverts` says that the list is the index turned around, for the names that are likely
unused: nothing is lost, nothing is there twice, and no file is there without a name.

Of the index of a corpus three facts are needed (`WellFormed`): names increase, every name has a
file, and the files of a name increase. What the list counts follows from what it lists
(`total_eq_sum`): names by file are as many as files by name.
-/

namespace Declutter

namespace UnusedReport

variable {r : UnusedReport} {file name : Text} {names : List Text}

/-- A name is listed under a file. -/
def Lists (r : UnusedReport) (file name : Text) : Prop :=
  ∃ names, r.namesOf? file = some names ∧ name ∈ names

/-- Files increase, and so do the names of each. -/
structure Increasing (r : UnusedReport) : Prop where
  files : r.files.Pairwise (·.1 < ·.1)
  names : ∀ entry ∈ r.files, entry.2.Pairwise (· < ·)

theorem namesOf?_eq_some_iff (h : r.files.Pairwise (·.1 < ·.1)) :
    r.namesOf? file = some names ↔ (file, names) ∈ r.files :=
  (OrderedMap.mem_entries_iff (m := ⟨r.files, h⟩)).symm

theorem lists_iff (h : r.files.Pairwise (·.1 < ·.1)) :
    r.Lists file name ↔ ∃ names, (file, names) ∈ r.files ∧ name ∈ names := by
  simp only [Lists, namesOf?_eq_some_iff h]

/-- The files that are listed. -/
def fileSet (r : UnusedReport) : Finset Text := (r.files.map (·.1)).toFinset

theorem Increasing.nodup (h : r.Increasing) : (r.files.map (·.1)).Nodup :=
  (List.pairwise_map.2 h.files).nodup

theorem card_fileSet (h : r.Increasing) : r.fileSet.card = r.fileCount := by
  rw [fileSet, List.toFinset_card_of_nodup h.nodup, List.length_map, fileCount]

theorem Lists.mem_fileSet (h : r.Increasing) (hlists : r.Lists file name) : file ∈ r.fileSet := by
  obtain ⟨names, hmem, -⟩ := (lists_iff h.files).1 hlists
  exact List.mem_toFinset.2 (List.mem_map_of_mem hmem)

theorem mem_fileSet (h : r.Increasing) (hne : ∀ entry ∈ r.files, entry.2 ≠ []) :
    file ∈ r.fileSet ↔ ∃ name, r.Lists file name := by
  constructor
  · intro hfile
    obtain ⟨⟨_, names⟩, hmem, rfl⟩ := List.mem_map.1 (List.mem_toFinset.1 hfile)
    obtain ⟨name, hname⟩ := List.exists_mem_of_ne_nil names (hne _ hmem)
    exact ⟨name, (lists_iff h.files).2 ⟨names, hmem, hname⟩⟩
  · intro hlists
    obtain ⟨name, hlists⟩ := hlists
    exact hlists.mem_fileSet h

theorem isEmpty_iff (h : r.Increasing) (hne : ∀ entry ∈ r.files, entry.2 ≠ []) :
    r.isEmpty ↔ ∀ file name, ¬ r.Lists file name := by
  have hset : r.isEmpty ↔ r.fileSet = ∅ := by
    rw [isEmpty, List.isEmpty_iff, fileSet, List.toFinset_eq_empty_iff, List.map_eq_nil_iff]
  simp only [hset, Finset.eq_empty_iff_forall_notMem, mem_fileSet h hne, not_exists]

theorem total_eq_sum_map (r : UnusedReport) : r.total = (r.files.map (·.2.length)).sum := by
  rw [total, List.sum_eq_foldl, List.foldl_map]

/-- **Names by file are files by name**: if the names `idle` are listed, each under its files, then
as many are listed as they have files. -/
theorem total_eq_sum (h : r.Increasing) {idle : Finset Text} {files : Text → Finset Text}
    (hlists : ∀ file name, r.Lists file name ↔ name ∈ idle ∧ file ∈ files name) :
    r.total = ∑ name ∈ idle, (files name).card := by
  have hnames : ∀ entry ∈ r.files,
      entry.2.length = (idle.filter fun name => entry.1 ∈ files name).card := by
    intro entry hentry
    have hset : idle.filter (fun name => entry.1 ∈ files name) = entry.2.toFinset := by
      ext name
      rw [Finset.mem_filter, ← hlists, List.mem_toFinset, Lists,
        (namesOf?_eq_some_iff h.files).2 hentry]
      simp
    rw [hset, List.toFinset_card_of_nodup (h.names entry hentry).nodup]
  have hfiles : ∀ name ∈ idle, r.fileSet.filter (· ∈ files name) = files name := by
    intro name hname
    ext file
    rw [Finset.mem_filter]
    exact and_iff_right_of_imp fun hfile =>
      ((hlists file name).2 ⟨hname, hfile⟩).mem_fileSet h
  calc r.total
    _ = (r.files.map (·.2.length)).sum := total_eq_sum_map r
    _ = ((r.files.map (·.1)).map fun file =>
          (idle.filter fun name => file ∈ files name).card).sum := by
      rw [List.map_map, List.map_congr_left hnames]
      rfl
    _ = ∑ file ∈ r.fileSet, (idle.filter fun name => file ∈ files name).card := by
      rw [fileSet, List.sum_toFinset _ h.nodup]
    _ = ∑ name ∈ idle, (r.fileSet.filter (· ∈ files name)).card :=
      Finset.sum_card_bipartiteAbove_eq_sum_card_bipartiteBelow fun file name => file ∈ files name
    _ = ∑ name ∈ idle, (files name).card :=
      Finset.sum_congr rfl fun name hname => by rw [hfiles name hname]

end UnusedReport

namespace SymbolIndex

open Declutter.Symbol

variable {i : SymbolIndex} {y : Symbol} {file name : Text} {names : List Text}

/-- Names increase, and every name has files, which increase too. -/
structure WellFormed (i : SymbolIndex) : Prop where
  names : i.symbols.Pairwise (·.name < ·.name)
  files_ne_nil : ∀ y ∈ i.symbols, y.files ≠ []
  files : ∀ y ∈ i.symbols, y.files.Pairwise (· < ·)

theorem wellFormed_ofUnits (x : Lexicon) (units : List SourceUnit) :
    (ofUnits x units).WellFormed := by
  rw [ofUnits_eq]
  constructor
  · exact List.pairwise_map.2 (Ordered.pairwise_ofList _)
  · intro y hy
    obtain ⟨n, hn, rfl⟩ := List.mem_map.1 hy
    rw [Ordered.mem_ofList, List.mem_flatMap] at hn
    obtain ⟨u, hu, hdef⟩ := hn
    have hfile : u.display ∈ Ordered.ofList
        ((units.filter fun u => (definitions x u.text).contains n).map (·.display)) := by
      rw [Ordered.mem_ofList]
      exact List.mem_map_of_mem (List.mem_filter.2 ⟨hu, by simpa using hdef⟩)
    exact List.ne_nil_of_mem hfile
  · intro y hy
    obtain ⟨n, -, rfl⟩ := List.mem_map.1 hy
    exact Ordered.pairwise_ofList _

/-- The files that define a name, and none if it is not defined. -/
def filesOf (i : SymbolIndex) (name : Text) : List Text := (i.definingFiles? name).getD []

/-- The names that are defined and likely unused. -/
def idleNames (i : SymbolIndex) : Finset Text :=
  {n ∈ (i.symbols.map (·.name)).toFinset | i.isLikelyUnused n}

theorem find?_eq_some_iff (h : i.WellFormed) :
    i.find? name = some y ↔ y ∈ i.symbols ∧ y.name = name := by
  constructor
  · intro hfind
    exact ⟨List.mem_of_find?_eq_some hfind, by simpa using List.find?_some hfind⟩
  · intro hy
    have hnames : (i.symbols.map (·.name)).Nodup := (List.pairwise_map.2 h.names).nodup
    refine find?_eq_some_of_unique hy.1 (by simp [hy.2]) fun z hz hname => ?_
    exact List.inj_on_of_nodup_map hnames hz hy.1 (by simpa [hy.2] using hname)

theorem filesOf_of_mem (h : i.WellFormed) (hy : y ∈ i.symbols) : i.filesOf y.name = y.files := by
  rw [filesOf, definingFiles?, (find?_eq_some_iff h).2 ⟨hy, rfl⟩]
  rfl

theorem isLikelyUnused_of_mem (h : i.WellFormed) (hy : y ∈ i.symbols) :
    i.isLikelyUnused y.name = y.isLikelyUnused := by
  rw [isLikelyUnused, (find?_eq_some_iff h).2 ⟨hy, rfl⟩]
  rfl

theorem exists_of_isLikelyUnused (h : i.isLikelyUnused name) : ∃ y ∈ i.symbols, y.name = name := by
  obtain ⟨y, hy, -⟩ := (Option.any_eq_true _ _).1 h
  exact ⟨y, List.mem_of_find?_eq_some hy, by simpa using List.find?_some hy⟩

theorem mem_idleNames : name ∈ i.idleNames ↔ i.isLikelyUnused name := by
  rw [idleNames, Finset.mem_filter, List.mem_toFinset]
  refine and_iff_right_of_imp fun h => ?_
  obtain ⟨y, hy, rfl⟩ := exists_of_isLikelyUnused h
  exact List.mem_map_of_mem hy

/-- The likely unused types that a file defines. -/
def idleIn (i : SymbolIndex) (file : Text) : List Symbol :=
  (i.symbols.filter Symbol.isLikelyUnused).filter fun y => y.files.contains file

theorem mem_idleIn : y ∈ i.idleIn file ↔ y ∈ i.symbols ∧ y.isLikelyUnused ∧ file ∈ y.files := by
  simp only [idleIn, List.mem_filter, List.contains_iff_mem, and_assoc]

/-- A file is listed if it defines types that are likely unused, with their names. -/
theorem mem_files_unused : (file, names) ∈ i.unused.files ↔
    i.idleIn file ≠ [] ∧ names = (i.idleIn file).map (·.name) := by
  have hkey : file ∈ Ordered.ofList ((i.symbols.filter Symbol.isLikelyUnused).flatMap (·.files)) ↔
      i.idleIn file ≠ [] := by
    rw [Ordered.mem_ofList, List.mem_flatMap, Ne, List.eq_nil_iff_forall_not_mem, not_forall_not]
    simp only [mem_idleIn, List.mem_filter, and_assoc]
  rw [← hkey]
  constructor
  · intro hmem
    obtain ⟨f, hf, heq⟩ := List.mem_map.1 hmem
    cases heq
    exact ⟨hf, rfl⟩
  · intro hmem
    exact List.mem_map.2 ⟨file, hmem.1, by rw [hmem.2]; rfl⟩

theorem ne_nil_of_mem_unused : ∀ entry ∈ i.unused.files, entry.2 ≠ [] := by
  intro entry hentry
  obtain ⟨hidle, hnames⟩ := mem_files_unused.1 hentry
  rw [hnames]
  simpa using hidle

theorem increasing_unused (h : i.WellFormed) : i.unused.Increasing where
  files := List.pairwise_map.2 (Ordered.pairwise_ofList _)
  names := by
    intro entry hentry
    rw [(mem_files_unused.1 hentry).2]
    exact List.pairwise_map.2 ((h.names.filter _).filter _)

theorem lists_unused_iff (h : i.WellFormed) :
    i.unused.Lists file name ↔ name ∈ i.idleNames ∧ file ∈ i.filesOf name := by
  rw [UnusedReport.lists_iff (increasing_unused h).files, mem_idleNames]
  constructor
  · intro hlisted
    obtain ⟨names, hmem, hname⟩ := hlisted
    rw [(mem_files_unused.1 hmem).2] at hname
    obtain ⟨y, hy, rfl⟩ := List.mem_map.1 hname
    obtain ⟨hsymbol, hidle, hfile⟩ := mem_idleIn.1 hy
    rw [isLikelyUnused_of_mem h hsymbol, filesOf_of_mem h hsymbol]
    exact ⟨hidle, hfile⟩
  · intro hidle
    obtain ⟨y, hsymbol, rfl⟩ := exists_of_isLikelyUnused hidle.1
    rw [isLikelyUnused_of_mem h hsymbol, filesOf_of_mem h hsymbol] at hidle
    have hy : y ∈ i.idleIn file := mem_idleIn.2 ⟨hsymbol, hidle⟩
    exact ⟨_, mem_files_unused.2 ⟨List.ne_nil_of_mem hy, rfl⟩, List.mem_map_of_mem hy⟩

theorem nodup_filesOf (h : i.WellFormed) (hname : name ∈ i.idleNames) : (i.filesOf name).Nodup := by
  obtain ⟨y, hy, rfl⟩ := exists_of_isLikelyUnused (mem_idleNames.1 hname)
  rw [filesOf_of_mem h hy]
  exact (h.files y hy).nodup

theorem total_unused (h : i.WellFormed) :
    i.unused.total = ∑ name ∈ i.idleNames, (i.filesOf name).length := by
  have hlists : ∀ file name, i.unused.Lists file name ↔
      name ∈ i.idleNames ∧ file ∈ (i.filesOf name).toFinset := by
    simp only [lists_unused_iff h, List.mem_toFinset, implies_true]
  rw [UnusedReport.total_eq_sum (increasing_unused h) hlists]
  exact Finset.sum_congr rfl fun name hname =>
    List.toFinset_card_of_nodup (nodup_filesOf h hname)

theorem fileCount_unused (h : i.WellFormed) : i.unused.fileCount =
    (i.idleNames.biUnion fun name => (i.filesOf name).toFinset).card := by
  rw [← UnusedReport.card_fileSet (increasing_unused h)]
  congr 1
  ext file
  simp only [UnusedReport.mem_fileSet (increasing_unused h) ne_nil_of_mem_unused,
    lists_unused_iff h, Finset.mem_biUnion, List.mem_toFinset]

theorem isEmpty_unused_iff (h : i.WellFormed) : i.unused.isEmpty ↔
    ∀ name, (i.definingFiles? name).isSome → ¬ i.isLikelyUnused name := by
  rw [UnusedReport.isEmpty_iff (increasing_unused h) ne_nil_of_mem_unused]
  constructor
  · -- a likely unused name would be listed under its first file
    intro hnone name _ hidle
    obtain ⟨y, hy, rfl⟩ := exists_of_isLikelyUnused hidle
    obtain ⟨file, hfile⟩ := List.exists_mem_of_ne_nil _ (h.files_ne_nil y hy)
    rw [← filesOf_of_mem h hy] at hfile
    exact hnone file y.name ((lists_unused_iff h).2 ⟨mem_idleNames.2 hidle, hfile⟩)
  · intro hused file name hlisted
    have hidle := mem_idleNames.1 ((lists_unused_iff h).1 hlisted).1
    obtain ⟨y, hy, rfl⟩ := exists_of_isLikelyUnused hidle
    refine hused y.name ?_ hidle
    rw [definingFiles?, (find?_eq_some_iff h).2 ⟨hy, rfl⟩]
    rfl

end SymbolIndex

/-- A list of likely unused types is an index turned around. -/
structure UnusedReport.Inverts (r : UnusedReport) (i : SymbolIndex) : Prop where
  /-- The names under a file are those that it defines and that are likely unused. -/
  lists : ∀ file name, r.Lists file name ↔ file ∈ i.filesOf name ∧ i.isLikelyUnused name
  names_ne_nil : ∀ entry ∈ r.files, entry.2 ≠ []
  /-- Files are in the order of their bytes, and so are the names of each. -/
  files_increasing : (r.files.map (·.1.utf8)).Pairwise (· < ·)
  names_increasing : ∀ entry ∈ r.files, (entry.2.map (·.utf8)).Pairwise (· < ·)
  /-- A name counts once for each file that defines it. -/
  total : r.total = ∑ name ∈ i.idleNames, (i.filesOf name).length
  fileCount : r.fileCount = (i.idleNames.biUnion fun name => (i.filesOf name).toFinset).card
  isEmpty : r.isEmpty ↔ ∀ name, (i.definingFiles? name).isSome → ¬ i.isLikelyUnused name

namespace SymbolIndex

/-- **The list of likely unused types is the index turned around**, for every corpus. -/
theorem unused_inverts (x : Lexicon) (units : List SourceUnit) :
    (ofUnits x units).unused.Inverts (ofUnits x units) := by
  have h := wellFormed_ofUnits x units
  have hincreasing := increasing_unused h
  constructor
  case lists =>
    intro file name
    rw [lists_unused_iff h, mem_idleNames, and_comm]
  case names_ne_nil => exact ne_nil_of_mem_unused
  case files_increasing => exact List.pairwise_map.2 (hincreasing.files.imp Text.utf8_lt)
  case names_increasing =>
    intro entry hentry
    exact List.pairwise_map.2 ((hincreasing.names entry hentry).imp Text.utf8_lt)
  case total => exact total_unused h
  case fileCount => exact fileCount_unused h
  case isEmpty => exact isEmpty_unused_iff h

end SymbolIndex

end Declutter
