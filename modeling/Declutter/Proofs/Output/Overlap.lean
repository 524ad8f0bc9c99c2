import Mathlib
import Declutter.Proofs.Output.Recreate

/-!
# Output directories apart from the input

Before an output directory is made anew, its path is compared with the input directory. Paths that
lead somewhere are compared by where they lead. A path that does not is taken as it is spelled, and
a `..` after a missing name then counts as a name.

`recreate_apart` says what this is worth. The input directory is still there afterwards, and it is
apart from an output directory whose path has no `..`, or that led to the same place before. In
general the two paths may come to meet; they do so exactly if `meets` says so of the cleared disk,
where every missing name counts as a directory. `recreate_missing_up` is a case in which they do.
-/

namespace Declutter

namespace Disk

variable {d d' d'' : Disk} {p q r : Place} {s : List Step} {a b : Path}

/-! ## Disks with more directories -/

/-- The second disk has all that is on the first one, and otherwise only more directories. -/
structure Widens (d d' : Disk) : Prop where
  workDir : d'.workDir = d.workDir
  entry : ∀ q, d'.entry? q = d.entry? q ∨ d.entry? q = none ∧ d'.entry? q = some .dir

namespace Widens

theorem refl (d : Disk) : d.Widens d := ⟨rfl, fun _ => .inl rfl⟩

theorem trans (h : d.Widens d') (h' : d'.Widens d'') : d.Widens d'' := by
  refine ⟨h'.workDir.trans h.workDir, ?_⟩
  intro q
  rcases h.entry q with h1 | ⟨h1, h2⟩
  · rw [← h1]
    exact h'.entry q
  · rcases h'.entry q with h3 | ⟨h3, -⟩
    · exact .inr ⟨h1, h3.trans h2⟩
    · rw [h2] at h3
      cases h3

theorem put (hp : p ≠ []) (h : d.entry? p = none) : d.Widens (d.put p .dir) := by
  refine ⟨workDir_put .., ?_⟩
  intro q
  rw [entry?_put d hp]
  split
  · next hq => exact .inr ⟨hq ▸ h, rfl⟩
  · exact .inl rfl

theorem keeps (h : d.Widens d') : d.Keeps d' := by
  refine .of_subset h.workDir ?_
  intro q e hq
  rcases h.entry q with h1 | ⟨h1, -⟩
  · rw [h1, hq]
  · rw [hq] at h1
    cases h1

theorem link_iff (h : d.Widens d') {t : Path} :
    d'.entry? p = some (.link t) ↔ d.entry? p = some (.link t) := by
  rcases h.entry p with h1 | ⟨h1, h2⟩
  · rw [h1]
  · simp [h1, h2]

/-- Making directories makes nothing else, for any path. -/
theorem makeDirs (d : Disk) (a : Path) : d.Widens (DiskM.runOn d (makeDirs a)).2 :=
  preserves_makeDirs (fun _ _ _ h hn => h.trans (.put (by simp) hn)) a d (.refl d)

end Widens

/-! ## Where a path will lead -/

/-- Where steps lead, through at most `links` links, if every name that is missing is taken for a
directory that is yet to be made. -/
def destinationFrom (d : Disk) (links : Nat) (place : Place) (steps : List Step) : Option Place :=
  match steps with
  | [] => some place
  | .here :: steps => d.destinationFrom links place steps
  | .up :: steps => d.destinationFrom links place.dropLast steps
  | .down name :: steps =>
    match d.entry? (place ++ [name]) with
    | some (.link target) =>
      match links with
      | 0 => none
      | links + 1 => d.destinationFrom links (target.start place) (target.fullSteps ++ steps)
    | _ => d.destinationFrom links (place ++ [name]) steps
termination_by (links, steps.length)

/-- Where a path will lead once the directories on its way are made. -/
def destination? (d : Disk) (a : Path) : Option Place :=
  d.destinationFrom linkLimit (a.start d.workDir) a.fullSteps

/-- Whether a path will lead to where another leads, or above it, once the directories on their ways
are made. -/
def meets (d : Disk) (a b : Path) : Bool :=
  match d.destination? a, d.destination? b with
  | some r, some q => r.isPrefixOf q
  | _, _ => false

theorem Widens.destinationFrom (h : d.Widens d') {n links : Nat} (hl : d'.Leads p s n q)
    (hn : n ≤ links) : d.destinationFrom links p s = some q := by
  induction hl generalizing links with
  | done p => rw [Disk.destinationFrom]
  | here _ _ ih =>
    rw [Disk.destinationFrom]
    exact ih hn
  | up _ _ ih =>
    rw [Disk.destinationFrom]
    exact ih hn
  | down _ he hne _ ih =>
    rw [Disk.destinationFrom]
    split
    · next t ht =>
      rw [h.link_iff.2 ht] at he
      cases he
      exact absurd rfl (hne t)
    · exact ih hn
  | link _ ht _ ih =>
    obtain ⟨l, rfl⟩ : ∃ l, links = l + 1 := ⟨links - 1, by omega⟩
    rw [Disk.destinationFrom, h.link_iff.1 ht]
    exact ih (by omega)

/-- **Where a path leads on the wider disk** is where it was bound to lead. -/
theorem Widens.destination? (h : d.Widens d') (ha : d'.resolve? a = some q) :
    d.destination? a = some q := by
  obtain ⟨-, -, n, hn, hl⟩ := resolve?_eq_some_iff.1 ha
  rw [h.workDir] at hl
  exact h.destinationFrom hl hn

theorem Widens.prefix_iff (h : d.Widens d') (ha : d'.resolve? a = some r)
    (hb : d'.resolve? b = some q) : r <+: q ↔ d.meets a b := by
  rw [meets, h.destination? ha, h.destination? hb]
  exact List.isPrefixOf_iff_prefix.symm

/-! ## The comparison -/

/-- Paths that both lead somewhere are compared by where they lead. -/
theorem overlaps_iff (ha : d.resolve? a = some r) (hb : d.resolve? b = some q) :
    d.overlaps a b ↔ r <+: q := by
  have hinj : Function.Injective Component.name := fun _ _ h => Component.name.inj h
  simp [overlaps, absolute, ha, hb, List.prefix_map_iff_of_injective hinj]

/-- A directory that is not where a path leads, or below, is still there when the path is cleared.
-/
theorem Cleared.dir (h : d.Cleared a d') (hq : d.entry? q = some .dir)
    (hout : ∀ r, d.resolve? a = some r → ¬ r <+: q) : d'.entry? q = some .dir := by
  cases he : d'.entry? q with
  | some e => rw [← hq, h.old q e he]
  | none =>
    rcases h.gone q _ hq he with ⟨r, hr, hpre⟩ | ⟨_, _, _, _, _, _, _, _, t, ht⟩
    · exact absurd hpre (hout r hr)
    · rw [hq] at ht
      cases ht

end Disk

namespace OutputTree

open Disk

variable {d d' : Disk} {root input : Path} {i r : Place} {tree : OutputTree}

/-- What is known once an output directory was made anew. -/
theorem recreate_ok (hd : d.WellFormed)
    (h : DiskM.runOn d (recreate root input) = (.ok tree, d')) :
    d.overlaps root input = false ∧
      DiskM.runOn (d.cleared root) (makeDirs root) = (.ok (), d') := by
  rcases recreate_parts hd root input with ⟨x, hx⟩ | ⟨x, hx⟩ | ⟨ho, -, hx⟩
  · rw [h] at hx; cases hx
  · rw [h] at hx; cases hx
  · rw [h] at hx
    split at hx
    · cases hx
    · next hm =>
      cases hx
      exact ⟨ho, hm⟩

theorem keeps_of_recreate (hd : d.WellFormed)
    (h : DiskM.runOn d (recreate root input) = (.ok tree, d')) : (d.cleared root).Keeps d' := by
  have hwidens := Widens.makeDirs (d.cleared root) root
  rw [(recreate_ok hd h).2] at hwidens
  exact hwidens.keeps

/-- The last directory that is made for an output directory is that one. -/
theorem makeDir_of_recreate (hd : d.WellFormed)
    (ht : root.text ≠ []) (hup : .up ∉ root.components)
    (h : DiskM.runOn d (recreate root input) = (.ok tree, d')) :
    ∃ d₀ : Disk, d₀.WellFormed ∧ d₀.makeDir root = .ok d' := by
  rcases recreate_parts hd root input with ⟨x, hx⟩ | ⟨x, hx⟩ | ⟨-, hf, -⟩
  · rw [h] at hx; cases hx
  · rw [h] at hx; cases hx
  · exact makeDir_of_makeDirs (cleared_cleared hd root).wellFormed ht hup hf (recreate_ok hd h).2

/-- Without `..`, the new directory does not lie where a directory was that is not to be cleared. -/
theorem recreate_not_above (hd : d.WellFormed) (ht : root.text ≠ []) (hup : .up ∉ root.components)
    (hi : d.entry? i = some .dir) (hout : ∀ x, d.resolve? root = some x → ¬ x <+: i)
    (h : DiskM.runOn d (recreate root input) = (.ok tree, d')) (hr : d'.resolve? root = some r) :
    ¬ r <+: i := by
  have hc := cleared_cleared hd root
  obtain ⟨-, -, r', n, names, hm, rfl⟩ := recreate_ok_chain hd ht hup h
  obtain ⟨m, -, hl⟩ := leads_steps hr
  obtain ⟨m', -, hl'⟩ := hm.leads hc.wellFormed
  rw [workDir_addDirs, hc.workDir] at hl
  obtain rfl := hl.eq hl'
  intro hpre
  have hn : r' ++ [n] <+: i := .trans (by simp [List.prefix_append_right_inj]) hpre
  -- The first directory that is new is where nothing was, or where the path led, or its own link.
  rcases hc.missing hm with hm' | ⟨x, hx, hpre'⟩ | ⟨_, _, _, _, _, _, _, _, t, hlink⟩
  · rw [hm'.entry?_eq_none hd hn] at hi
    cases hi
  · exact hout x hx (hpre'.trans hn)
  · rw [hd.dir_of_prefix hn hi] at hlink
    cases hlink

/-- **What the comparison is worth.** Once an output directory was made anew, the input directory is
still there, and its path still leads to it unless it led through what was cleared. The new
directory is neither the input directory nor above it, if its path has no `..` or led to the same
place before. In general the two paths may come to meet, which they do exactly if they meet on the
cleared disk. -/
theorem recreate_apart (hd : d.WellFormed) (hinput : d.resolve? input = some i)
    (hi : d.entry? i = some .dir) (h : DiskM.runOn d (recreate root input) = (.ok tree, d')) :
    d'.entry? i = some .dir ∧
    ((d.cleared root).resolve? input = some i → d'.resolve? input = some i) ∧
    (root.text ≠ [] → d'.isDir root) ∧
    ∀ r, d'.resolve? root = some r →
      (.up ∉ root.components ∨ d.resolve? root = some r → ¬ r <+: i) ∧
      ∀ i', d'.resolve? input = some i' → (r <+: i' ↔ (d.cleared root).meets root input) := by
  obtain ⟨ho, hmake⟩ := recreate_ok hd h
  have hout : ∀ x, d.resolve? root = some x → ¬ x <+: i := by
    intro x hx hpre
    rw [(overlaps_iff hx hinput).2 hpre] at ho
    cases ho
  have hw : (d.cleared root).Widens d' := by
    have := Widens.makeDirs (d.cleared root) root
    rwa [hmake] at this
  refine ⟨hw.keeps.dir _ ((cleared_cleared hd root).dir hi hout), hw.keeps.resolve?,
    fun ht => isDir_of_makeDirs ht hmake, fun r hr => ⟨?_, fun i' hi' => hw.prefix_iff hr hi'⟩⟩
  rintro (hup | hr')
  · exact recreate_not_above hd (resolve?_eq_some_iff.1 hr).1 hup hi hout h hr
  · exact hout r hr'

/-- A working directory with an input directory in it. -/
def codeDisk : Disk := (withWorkDir [['w']]).put [['w'], ['C', 'o', 'd', 'e']] .dir

/-- A new directory within a missing one is apart from the input beside it. -/
theorem recreate_apart_codeDisk :
    (DiskM.runOn codeDisk (recreate "out/new" "./Code/")).1 = .ok ⟨"out/new"⟩ ∧
      (DiskM.runOn codeDisk (recreate "out/new" "./Code/")).2.isDir "out/new" ∧
      ∀ r, (DiskM.runOn codeDisk (recreate "out/new" "./Code/")).2.resolve? "out/new" = some r →
        ¬ r <+: [['w'], ['C', 'o', 'd', 'e']] := by
  have hinput : codeDisk.resolve? "./Code/" = some [['w'], ['C', 'o', 'd', 'e']] := by cbv
  have hok : (DiskM.runOn codeDisk (recreate "out/new" "./Code/")).1 = .ok ⟨"out/new"⟩ := by cbv
  have hrun : DiskM.runOn codeDisk (recreate "out/new" "./Code/") =
      (.ok ⟨"out/new"⟩, (DiskM.runOn codeDisk (recreate "out/new" "./Code/")).2) := Prod.ext hok rfl
  obtain ⟨-, -, hdir, hr⟩ := recreate_apart (by decide) hinput (by decide) hrun
  exact ⟨hok, hdir (by decide), fun r h => (hr r h).1 (.inl (by decide))⟩

/-- **A `..` after a missing name deceives the comparison.** The path `nope/../Code` is accepted for
an output directory, and then leads to the input directory `Code`. -/
theorem recreate_missing_up :
    codeDisk.WellFormed ∧ codeDisk.isDir "Code" ∧
      (DiskM.runOn codeDisk (recreate "nope/../Code" "Code")).1 = .ok ⟨"nope/../Code"⟩ ∧
      (DiskM.runOn codeDisk (recreate "nope/../Code" "Code")).2.resolve? "nope/../Code" =
        some [['w'], ['C', 'o', 'd', 'e']] ∧
      (DiskM.runOn codeDisk (recreate "nope/../Code" "Code")).2.resolve? "Code" =
        some [['w'], ['C', 'o', 'd', 'e']] := by
  refine ⟨by decide, ?_, ?_, ?_, ?_⟩ <;> cbv

-- An input path without a missing name, which leads through a link in the output directory, comes
-- to lead to the new one.
example : ∃ d : Disk, d.WellFormed ∧ d.resolve? "/r/l/../l/r" = some [['l'], ['r']] ∧
    (DiskM.runOn d (recreate "/r/l/r" "/r/l/../l/r")).1 = .ok ⟨"/r/l/r"⟩ ∧
    (DiskM.runOn d (recreate "/r/l/r" "/r/l/../l/r")).2.resolve? "/r/l/r" =
      some [['r'], ['l'], ['r']] ∧
    (DiskM.runOn d (recreate "/r/l/r" "/r/l/../l/r")).2.resolve? "/r/l/../l/r" =
      some [['r'], ['l'], ['r']] := by
  refine ⟨((((withWorkDir [['r']]).put [['r'], ['l']] (.link "/")).put [['l']] .dir).put
    [['l'], ['r']] .dir), by decide, ?_, ?_, ?_, ?_⟩ <;> cbv

end OutputTree

end Declutter
