import Mathlib
import Declutter.Proofs.Output.Below
import Declutter.Proofs.Run.Mirror

/-!
# The order in which sources are scrubbed

A run scrubs its sources one after the other, or all of them apart from each other.
`Config.scrubInOrder` does so in any order, and puts the results in the order of the sources.
`scrub_any_order`: in a new output directory this makes no difference.

Scrubbing a source is adding one file to the disk (`Ready.runOn_scrubUnit`), which leaves room for
the others (`Ready.addCopy`). Files of sources that a search has found can be added in any order
(`FoundTogether.foldl_addCopy_perm`), since two of them can be (`Disk.addFile_comm`).

A new output directory is what making it anew leaves, if its path has no `..`
(`OutputTree.fresh_of_recreate`). With a path such as `nope/../o` it may not be new: while `nope` is
missing the path leads nowhere, so that nothing is removed, and once `nope` is made the old
directory is there as it was. A link in it can lead to the file of another source, and then the
order matters (`staleDisk`).
-/

namespace Declutter

open Disk

variable {c : Config} {d : Disk} {r : Place} {tree : OutputTree} {units l : List SourceUnit}

/-- The methods that are marked in a source. -/
def Config.methodsOf (c : Config) (u : SourceUnit) : List AnnotatedMethod :=
  (c.scrub u.text).annotated.map fun m =>
    { file := u.display, name := m.name, line := m.startLine + 1, lineSpan := m.lineSpan }

/-- The disk with the file that a run writes for a source into the directory `r`. -/
def Config.addCopy (c : Config) (r : Place) (d : Disk) (u : SourceUnit) : Disk :=
  d.addFile r u.relative.names (c.scrub u.text).text.utf8

/-- Scrubs sources in some order, each with its position among them, and puts the results in the
order of their positions. It fails if one of them has failed. -/
def Config.scrubInOrder (c : Config) (tree : OutputTree) (order : List (SourceUnit × Nat)) :
    DiskM Failure (List AnnotatedMethod) := do
  let results ← order.mapM fun x => do return (← (c.scrubUnit tree x.1).attempt, x.2)
  return (← (results.mergeSort fun x y => x.2 ≤ y.2).mapM fun x => MonadExcept.ofExcept x.1).flatten

/-! ## Files in any order -/

namespace FoundTogether

theorem perm (h : FoundTogether units) (hl : l.Perm units) : FoundTogether l :=
  ⟨fun u hu => h.ne_nil u (hl.subset hu), fun u hu => h.isName u (hl.subset hu),
    fun u hu => h.spelled u (hl.subset hu), (hl.pairwise_iff fun h => ⟨h.2, h.1⟩).2 h.apart⟩

/-- **Sources can be written in any order.** -/
theorem foldl_addCopy_perm (h : FoundTogether units) (hl : l.Perm units) (d : Disk) :
    l.foldl (c.addCopy r) d = units.foldl (c.addCopy r) d := by
  refine hl.foldl_eq' (fun u hu v hv d => ?_) d
  by_cases huv : u = v
  · rw [huv]
  · obtain ⟨h1, h2⟩ := (h.perm hl).apart.forall hu hv huv
    exact addFile_comm d r h1 h2 _ _

end FoundTogether

/-! ## One source after the other -/

/-- What is known before some sources are written into a directory. -/
structure Ready (root : Path) (r : Place) (units : List SourceUnit) (d : Disk) : Prop where
  rooted : d.Rooted root r
  found : FoundTogether units
  room : ∀ u ∈ units, d.Room r u.relative.names

namespace Ready

variable {u : SourceUnit}

theorem runOn_scrubUnit (h : Ready tree.root r (u :: l) d) :
    DiskM.runOn d (c.scrubUnit tree u) = (.ok (c.methodsOf u), c.addCopy r d u) := by
  have hu : u ∈ u :: l := List.mem_cons_self ..
  have hwrite := h.rooted.writeFile_below (h.found.ne_nil u hu) (h.found.isName u hu) (h.room u hu)
    (c.scrub u.text).text.utf8
  rw [← h.found.spelled u hu] at hwrite
  unfold Config.scrubUnit OutputTree.write writeText
  simp only [DiskM.runOn_bind, DiskM.runOn_rename, hwrite]
  rfl

/-- **Step.** When one source is written, there is room for the others. -/
theorem addCopy (h : Ready tree.root r (u :: l) d) : Ready tree.root r l (c.addCopy r d u) := by
  have hu : u ∈ u :: l := List.mem_cons_self ..
  obtain ⟨hapart, hrest⟩ := List.pairwise_cons.1 h.found.apart
  refine ⟨h.rooted.addFile (h.room u hu) (h.found.ne_nil u hu) (h.found.isName u hu) _,
    ⟨fun v hv => h.found.ne_nil v (List.mem_cons_of_mem _ hv),
      fun v hv => h.found.isName v (List.mem_cons_of_mem _ hv),
      fun v hv => h.found.spelled v (List.mem_cons_of_mem _ hv), hrest⟩, fun v hv => ?_⟩
  exact (h.room v (List.mem_cons_of_mem _ hv)).addFile (hapart v hv).1 (hapart v hv).2 _

/-- **Run.** Sources are written one after the other, whatever is done with what comes of each. -/
theorem runOn_mapM {α β ε : Type} {as : List α} (unit : α → SourceUnit) (f : α → DiskM ε β)
    (g : α → β)
    (hf : ∀ a d, DiskM.runOn d (c.scrubUnit tree (unit a)) =
      (.ok (c.methodsOf (unit a)), c.addCopy r d (unit a)) →
        DiskM.runOn d (f a) = (.ok (g a), c.addCopy r d (unit a)))
    (h : Ready tree.root r (as.map unit) d) :
    DiskM.runOn d (as.mapM f) = (.ok (as.map g), (as.map unit).foldl (c.addCopy r) d) := by
  induction as generalizing d with
  | nil => rfl
  | cons a as ih =>
    have hstep := hf a d h.runOn_scrubUnit
    rw [List.map_cons, List.map_cons, List.foldl_cons]
    exact DiskM.runOn_mapM_cons_ok.2 ⟨_, _, _, rfl, hstep, ih h.addCopy⟩

theorem runOn_scrubInTurn (h : Ready tree.root r l d) (c : Config) :
    DiskM.runOn d (c.scrubInTurn tree l) =
      (.ok (l.map c.methodsOf).flatten, l.foldl (c.addCopy r) d) := by
  rw [← List.map_id' l] at h
  have hrun := h.runOn_mapM (fun u => u) (c.scrubUnit tree) c.methodsOf fun _ _ hu => hu
  rw [List.map_id'] at hrun
  unfold Config.scrubInTurn
  rw [DiskM.runOn_bind, hrun]
  rfl

theorem runOn_scrubApart (h : Ready tree.root r l d) (c : Config) :
    DiskM.runOn d (c.scrubApart tree l) =
      (.ok (l.map c.methodsOf).flatten, l.foldl (c.addCopy r) d) := by
  rw [← List.map_id' l] at h
  have hrun := h.runOn_mapM (c := c) (fun u => u)
    (fun u => ((c.scrubUnit tree u).attempt : DiskM Failure _)) (fun u => .ok (c.methodsOf u))
    fun u d hu => by rw [DiskM.runOn_attempt, hu]
  rw [List.map_id'] at hrun
  have hall : ((l.map fun u => (.ok (c.methodsOf u) : Except Failure _)).mapM
      MonadExcept.ofExcept : DiskM Failure _) = pure (l.map c.methodsOf) := by
    rw [List.mapM_map]
    exact List.mapM_pure
  unfold Config.scrubApart
  rw [DiskM.runOn_bind, hrun]
  simp only [hall]
  rfl

theorem runOn_scrubInOrder {order : List (SourceUnit × Nat)}
    (h : Ready tree.root r (order.map Prod.fst) d) (c : Config) :
    DiskM.runOn d (c.scrubInOrder tree order) =
      (.ok ((order.mergeSort fun x y => x.2 ≤ y.2).map fun x => c.methodsOf x.1).flatten,
        (order.map Prod.fst).foldl (c.addCopy r) d) := by
  have hrun := h.runOn_mapM (c := c) Prod.fst
    (fun x => (do return (← (c.scrubUnit tree x.1).attempt, x.2) : DiskM Failure _))
    (fun x => (.ok (c.methodsOf x.1), x.2)) fun x d hu => by
      rw [DiskM.runOn_bind, DiskM.runOn_attempt, hu]
      rfl
  have hsort : ((order.map fun x => ((.ok (c.methodsOf x.1) : Except Failure _), x.2)).mergeSort
      fun x y => x.2 ≤ y.2) =
      (order.mergeSort fun x y => x.2 ≤ y.2).map fun x => (.ok (c.methodsOf x.1), x.2) :=
    (List.map_mergeSort
      (f := fun x : SourceUnit × Nat => ((.ok (c.methodsOf x.1) : Except Failure _), x.2))
      fun _ _ _ _ => rfl).symm
  have hall : (((order.mergeSort fun x y => x.2 ≤ y.2).map
      fun x => ((.ok (c.methodsOf x.1) : Except Failure _), x.2)).mapM
        fun x => (MonadExcept.ofExcept x.1 : DiskM Failure _)) =
      pure ((order.mergeSort fun x y => x.2 ≤ y.2).map fun x => c.methodsOf x.1) := by
    rw [List.mapM_map]
    exact List.mapM_pure
  unfold Config.scrubInOrder
  rw [DiskM.runOn_bind, hrun]
  simp only [hsort, hall]
  rfl

end Ready

/-! ## In any order -/

/-- Pairs with the positions of a list, put in order by these, are the pairs of the list. -/
theorem mergeSort_zipIdx {α : Type} {l : List α} {order : List (α × Nat)}
    (h : order.Perm l.zipIdx) : (order.mergeSort fun x y => x.2 ≤ y.2) = l.zipIdx := by
  have hsorted : l.zipIdx.Pairwise fun x y => x.2 ≤ y.2 := by
    rw [← List.pairwise_map (f := Prod.snd) (R := (· ≤ ·)), List.zipIdx_map_snd]
    exact (List.pairwise_lt_range' 1).imp Nat.le_of_lt
  have hmerged : (order.mergeSort fun x y => x.2 ≤ y.2).Pairwise
      fun x y => decide (x.2 ≤ y.2) = true :=
    List.pairwise_mergeSort (by simp; omega) (by simp; omega) order
  simp only [decide_eq_true_eq] at hmerged
  have hperm := (List.mergeSort_perm order fun x y => decide (x.2 ≤ y.2)).trans h
  refine List.Perm.eq_of_pairwise ?_ hmerged hsorted hperm
  rintro ⟨a, i⟩ ⟨b, j⟩ ha hb hij hji
  obtain rfl : i = j := Nat.le_antisymm hij hji
  obtain ⟨-, -, ha⟩ := List.mem_zipIdx (hperm.subset ha)
  obtain ⟨-, -, hb⟩ := List.mem_zipIdx hb
  rw [ha, hb]

/-- An output directory as it is when it was made anew: its path leads to a directory, and nothing
is in it. -/
structure Disk.Fresh (d : Disk) (root : Path) (r : Place) : Prop extends d.Rooted root r where
  empty : d.within r = []

theorem Disk.Fresh.ready (h : d.Fresh tree.root r) (hunits : FoundTogether units) :
    Ready tree.root r units d := by
  have hnone : ∀ k, k ≠ [] → d.entry? (r ++ k) = none := by
    intro k hk
    cases he : d.entry? (r ++ k) with
    | none => rfl
    | some e =>
      have hmem := mem_within.2 ⟨hk, he⟩
      rw [h.empty] at hmem
      cases hmem
  refine ⟨h.toRooted, hunits, fun u hu => ⟨fun k hk => ?_, hnone _ (hunits.ne_nil u hu)⟩⟩
  by_cases hnil : k = []
  · rw [hnil, List.append_nil]
    exact .inr h.dir
  · exact .inl (hnone k hnil)

theorem OutputTree.fresh_of_recreate (hd : d.WellFormed) (ht : c.output.text ≠ [])
    (hup : .up ∉ c.output.components) {d' : Disk}
    (h : DiskM.runOn d (recreate c.output c.input) = (.ok tree, d')) :
    ∃ r, d'.Fresh tree.root r := by
  obtain ⟨rfl, hv, -⟩ := recreate_ok_chain hd ht hup h
  obtain ⟨r, hempty⟩ := mirror_recreate ht hup hd h
  obtain ⟨m, hm, hleads⟩ := hempty.leads
  refine ⟨r, ⟨hempty.wellFormed, resolve?_of_leads ht hv hm hleads hempty.dir, hempty.dir⟩, ?_⟩
  apply List.eq_nil_iff_forall_not_mem.2
  rintro ⟨names, e⟩ hmem
  obtain ⟨hnames, hentry⟩ := mem_within.1 hmem
  rw [hempty.tree names hnames] at hentry
  cases hentry

/-- **Sources can be scrubbed in any order.** Into a new output directory, all sources of a search
are scrubbed without failure. The methods that are marked, by the positions of the sources, and the
disk in the end are the same for one after the other, for all of them apart, and for any order. In
an old directory, which is left as it was if it is to be made anew at a path such as `nope/../o`,
they need not be the same. -/
theorem scrub_any_order (h : d.Fresh tree.root r) (hunits : FoundTogether units) (c : Config) :
    ∃ d', DiskM.runOn d (c.scrubInTurn tree units) = (.ok (units.map c.methodsOf).flatten, d') ∧
      DiskM.runOn d (c.scrubApart tree units) = (.ok (units.map c.methodsOf).flatten, d') ∧
      ∀ order, order.Perm units.zipIdx →
        DiskM.runOn d (c.scrubInOrder tree order) = (.ok (units.map c.methodsOf).flatten, d') := by
  have hready := h.ready hunits
  refine ⟨units.foldl (c.addCopy r) d, hready.runOn_scrubInTurn c, hready.runOn_scrubApart c,
    fun order horder => ?_⟩
  have hperm : (order.map Prod.fst).Perm units := by
    have hmap := horder.map Prod.fst
    rwa [List.zipIdx_map_fst] at hmap
  rw [(h.ready (hunits.perm hperm)).runOn_scrubInOrder c, hunits.foldl_addCopy_perm hperm,
    mergeSort_zipIdx horder]
  have hmethods : (units.zipIdx.map fun x => c.methodsOf x.1) = units.map c.methodsOf := by
    conv_rhs => rw [← List.zipIdx_map_fst 0 units, List.map_map]
    rfl
  rw [hmethods]

/-- The two sources of the disk can be scrubbed last to first. -/
theorem scrub_any_order_earlierDisk :
    ∃ tree d files r,
      DiskM.runOn earlierDisk (OutputTree.recreate "o" "i") = (.ok tree, d) ∧
      collidingConfig.findSources d (some tree.root) "i" = .ok files ∧
      d.Fresh tree.root r ∧ FoundTogether (d.loadAll files).1 ∧
      (d.loadAll files).1.length = 2 ∧
      DiskM.runOn d (collidingConfig.scrubInOrder tree (d.loadAll files).1.zipIdx.reverse) =
        DiskM.runOn d (collidingConfig.scrubInTurn tree (d.loadAll files).1) := by
  have hok : (DiskM.runOn earlierDisk (OutputTree.recreate "o" "i")).1 = .ok ⟨"o"⟩ := by cbv
  have hfound : ((collidingConfig.findSources
      (DiskM.runOn earlierDisk (OutputTree.recreate "o" "i")).2 (some "o") "i").toOption.map
        fun files => (Disk.loadAll (DiskM.runOn earlierDisk
          (OutputTree.recreate "o" "i")).2 files).1.length) = some 2 := by cbv
  rcases hrun : DiskM.runOn earlierDisk (OutputTree.recreate "o" "i") with ⟨_, d⟩
  rw [hrun] at hok hfound
  cases hok
  obtain ⟨r, hfresh⟩ := OutputTree.fresh_of_recreate (c := collidingConfig)
    (show earlierDisk.WellFormed by decide) (by decide) (by decide) hrun
  cases hfiles : collidingConfig.findSources d (some "o") "i" with
  | error e =>
    rw [hfiles] at hfound
    cases hfound
  | ok files =>
    rw [hfiles] at hfound
    have hunits := foundTogether_loadAll hfresh.wellFormed hfiles
    obtain ⟨d', hturn, -, horder⟩ := scrub_any_order hfresh hunits collidingConfig
    refine ⟨⟨"o"⟩, d, files, r, rfl, hfiles, hfresh, hunits, Option.some.inj hfound, ?_⟩
    rw [hturn, horder _ (List.reverse_perm _)]

/-- In an old output directory, the place of one source is a link to the place of another. -/
def staleDisk : Disk :=
  (((((withWorkDir [['w']]).put [['w'], ['i']] .dir).put [['w'], ['i'], ['A', '.', 'c', 's']]
    (.file { bytes := [97] })).put [['w'], ['i'], ['B', '.', 'c', 's']]
      (.file { bytes := [98] })).put [['w'], ['o']] .dir).put [['w'], ['o'], ['A', '.', 'c', 's']]
        (.link "B.cs")

/-- What is at the place of the second source, once both are scrubbed in some order. -/
def staleEntry? (order : List (SourceUnit × Nat)) : Option Entry :=
  Disk.entry? (DiskM.runOn staleDisk do
    let tree ← OutputTree.recreate "nope/../o" "i"
    Config.standard.scrubInOrder tree order).2 [['w'], ['o'], ['B', '.', 'c', 's']]

example :
    staleEntry? [(.ofText "A.cs" ['a'], 0), (.ofText "B.cs" ['b'], 1)] =
      some (.file { bytes := [98] }) ∧
    staleEntry? [(.ofText "B.cs" ['b'], 1), (.ofText "A.cs" ['a'], 0)] =
      some (.file { bytes := [97] }) := by
  constructor
  · cbv
  · cbv

end Declutter
