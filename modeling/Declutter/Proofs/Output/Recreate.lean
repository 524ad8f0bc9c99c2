import Declutter.Output
import Declutter.Proofs.Disk.Removal

/-!
# Making an output directory anew

`Disk.site d a`: where the entry of the path `a` is, or comes to be once the directories above it
are made. `Disk.cleared d a`: the disk without what the path leads to.

`recreate_cases`: an output directory whose path has no `..` is made anew in two steps. The old one
is cleared, and then a chain of directories is made as far as they are missing. `recreate_frame`:
outside the site and the place that the path led to, all that this does is to make missing
directories above the site.
-/

namespace Declutter

namespace Disk

variable {d d' : Disk} {p q r : Place} {s : List Step} {a : Path} {n : Text} {names : List Text}

/-! ## Sites -/

/-- Where the last of some steps has its entry. A name that leads nowhere counts as a directory,
since it has to be made. -/
def siteFrom (d : Disk) (p : Place) : List Step → Place
  | [] => p
  | .here :: s => siteFrom d p s
  | .up :: s => siteFrom d p.dropLast s
  | [.down n] => p ++ [n]
  | .down n :: s =>
    match d.walk true linkLimit p [.down n] with
    | .ok q => siteFrom d q s
    | .error _ => siteFrom d (p ++ [n]) s

/-- Where the entry of a path is, or comes to be when the directories above it are made. -/
def site (d : Disk) (a : Path) : Place := d.siteFrom (a.start d.workDir) a.steps

theorem siteFrom_down (d : Disk) (p : Place) (n : Text) (hs : s ≠ []) :
    d.siteFrom p (.down n :: s) =
      match d.walk true linkLimit p [.down n] with
      | .ok q => d.siteFrom q s
      | .error _ => d.siteFrom (p ++ [n]) s := by
  cases s with
  | nil => exact absurd rfl hs
  | cons x s => rw [siteFrom]; simp

/-- Steps that lead somewhere can be left out. -/
theorem siteFrom_append {m : Nat} (hm : m ≤ linkLimit) (h : d.Leads p s m r) {t : List Step}
    (ht : t ≠ []) : d.siteFrom p (s ++ t) = d.siteFrom r t := by
  induction s generalizing p m with
  | nil => cases h; rfl
  | cons x s ih =>
    obtain ⟨r', i, j, h1, h2, rfl⟩ := Leads.split (s := [x]) h
    have hih := ih (by omega) h2
    cases x with
    | here =>
      obtain ⟨-, -, rfl⟩ := Leads.here_iff.1 h1
      rw [List.cons_append, siteFrom]
      exact hih
    | up =>
      cases h1 with
      | up _ h1 =>
        cases h1
        rw [List.cons_append, siteFrom]
        exact hih
    | down n =>
      rw [List.cons_append, siteFrom_down _ _ _ (by simp [ht]), h1.walk (by omega)]
      exact hih

theorem siteFrom_of_moving_eq_nil (h : moving s = []) : d.siteFrom p s = p := by
  induction s with
  | nil => rfl
  | cons x s ih =>
    by_cases hx : x = .here
    · subst hx
      rw [moving_cons_here] at h
      rw [siteFrom]
      exact ih h
    · rw [moving_cons_of_ne hx] at h
      cases h

/-- From a missing name on, names count as they are. -/
theorem siteFrom_of_none (hd : d.WellFormed) (h : d.entry? (p ++ [n]) = none)
    (hs : moving s = (n :: names).map .down) : d.siteFrom p s = p ++ n :: names := by
  induction s generalizing p n names with
  | nil => cases hs
  | cons x s ih =>
    by_cases hx : x = .here
    · subst hx
      rw [moving_cons_here] at hs
      rw [siteFrom]
      exact ih h hs
    rw [moving_cons_of_ne hx] at hs
    obtain ⟨rfl, hs'⟩ : x = .down n ∧ moving s = names.map .down := by simpa using hs
    by_cases hnil : s = []
    · subst hnil
      obtain rfl : names = [] := by simpa [moving] using hs'.symm
      rfl
    · have hwalk : ∀ q, d.walk true linkLimit p [.down n] ≠ .ok q := by
        intro q hq
        obtain ⟨m, -, hl⟩ := leads_of_walk hq
        cases hl with
        | down _ he _ _ => rw [h] at he; cases he
        | link _ he _ => rw [h] at he; cases he
      rw [siteFrom_down _ _ _ hnil]
      split
      · next hq => exact absurd hq (hwalk _)
      · cases names with
        | nil => rw [siteFrom_of_moving_eq_nil hs']
        | cons n' names =>
          -- what is missing has nothing below it
          have hbelow : d.entry? (p ++ [n] ++ [n']) = none :=
            hd.eq_none_of_append (by simp) (by rw [h]; simp)
          rw [ih hbelow hs', List.append_assoc]
          rfl

/-- The site of missing directories is the end of their chain. -/
theorem Missing.siteFrom_eq (hd : d.WellFormed) (h : d.Missing p s r n names) :
    d.siteFrom p s = r ++ n :: names := by
  obtain ⟨front, hs, m, hm, hf⟩ := h.leads_front
  obtain ⟨s₁, s₂, rfl, h₁, h₂⟩ := List.filter_eq_append_iff.1 hs
  have hne : s₂ ≠ [] := by
    rintro rfl
    simp at h₂
  have hl : d.Leads p s₁ m r := leads_of_moving (by rw [moving, h₁]; exact hf) h.dir
  rw [siteFrom_append hm hl hne]
  exact siteFrom_of_none hd h.absent h₂

/-- The site of a path that is a link is the place of that link. -/
theorem OwnLink.site_eq (h : d.OwnLink a q) : d.site a = q := by
  obtain ⟨s, x, r, m, hs, hm, hl, rfl, -⟩ := h
  rw [site, hs, siteFrom_append hm hl (by simp)]
  rfl

/-! ## Clearing -/

/-- The disk without what a path leads to. -/
def cleared (d : Disk) (a : Path) : Disk :=
  if (d.find? a).isSome then (DiskM.runOn d (removeDirs a)).2 else d

theorem cleared_cleared (hd : d.WellFormed) (a : Path) : d.Cleared a (d.cleared a) := by
  unfold cleared
  split
  · exact (removeDirs_cleared hd a).1
  · exact .refl hd a

/-- What is missing on the cleared disk was missing before, or it lies where the path led, or at the
link that the path was. -/
theorem Cleared.missing (h : d.Cleared a d') {p : Place} {s : List Step}
    (hm : d'.Missing p s r n names) : d.Missing p s r n names ∨
      (∃ x, d.resolve? a = some x ∧ x <+: r ++ [n]) ∨ d.OwnLink a (r ++ [n]) := by
  cases he : d.entry? (r ++ [n]) with
  | none =>
    obtain ⟨front, hs, m, hle, hf⟩ := hm.leads_front
    exact .inl ⟨⟨front, hs, m, hle, hf.mono h.keeps⟩, h.old _ _ hm.dir, he⟩
  | some e => exact .inr (h.gone _ e he hm.absent)

/-- A place that is neither at or below the site of a path nor where the path leads. -/
def Outside (d : Disk) (a : Path) (q : Place) : Prop :=
  ¬ d.site a <+: q ∧ ∀ r, d.resolve? a = some r → ¬ r <+: q

theorem Cleared.entry?_of_outside (h : d.Cleared a d') (hq : d.Outside a q) :
    d'.entry? q = d.entry? q := by
  cases he' : d'.entry? q with
  | some e => exact (h.old q e he').symm
  | none =>
    cases he : d.entry? q with
    | none => rfl
    | some e =>
      rcases h.gone q e he he' with ⟨r, hr, hpre⟩ | hown
      · exact absurd hpre (hq.2 r hr)
      · exact absurd (hown.site_eq ▸ List.prefix_refl _) hq.1

/-- The chain of directories that a path is made of, once it is cleared, is not outside, except for
what was missing above the site. -/
theorem Cleared.chain (hd : d.WellFormed) (h : d.Cleared a d')
    (hm : d'.Missing (a.start d.workDir) a.steps r n names) (hq : d.Outside a q)
    (hpre : r ++ [n] <+: q) : d.entry? q = none ∧ d.site a = r ++ n :: names := by
  rcases h.missing hm with hm' | ⟨x, hx, hpre'⟩ | hown
  · exact ⟨hm'.entry?_eq_none hd hpre, hm'.siteFrom_eq hd⟩
  · exact absurd (hpre'.trans hpre) (hq.2 x hx)
  · exact absurd (by rw [hown.site_eq]; exact hpre) hq.1

end Disk

namespace OutputTree

open Disk

variable {d d' : Disk} {root input : Path} {q : Place}

/-! ## The output directory -/

/-- The parts of making an output directory anew. -/
theorem runOn_recreate (d : Disk) (root input : Path) : DiskM.runOn d (recreate root input) =
    if d.overlaps root input then (.error (.overlappingRoots input root), d)
    else
      match if (d.find? root).isSome then DiskM.runOn d (removeDirs root) else (.ok (), d) with
      | (.error _, d₁) => (.error (.outputDir root), d₁)
      | (.ok _, d₁) =>
        match DiskM.runOn d₁ (makeDirs root) with
        | (.error _, d₂) => (.error (.outputDir root), d₂)
        | (.ok _, d₂) => (.ok ⟨root⟩, d₂) := by
  unfold recreate
  rw [DiskM.runOn_get_bind]
  by_cases ho : d.overlaps root input
  · simp [ho]
  · rw [if_neg ho, if_neg ho]
    by_cases hf : (d.find? root).isSome
    · simp only [hf, if_true, DiskM.runOn_bind, DiskM.runOn_rename]
      rcases DiskM.runOn d (removeDirs root) with ⟨_ | _, d₁⟩
      · rfl
      · rcases h : DiskM.runOn d₁ (makeDirs root) with ⟨_ | _, d₂⟩ <;> simp [h]
    · simp only [hf, DiskM.runOn_bind, DiskM.runOn_rename]
      rcases h : DiskM.runOn d (makeDirs root) with ⟨_ | _, d₂⟩ <;> simp [h]

theorem tree_of_recreate {tree : OutputTree}
    (h : DiskM.runOn d (recreate root input) = (.ok tree, d')) : tree = ⟨root⟩ := by
  rw [runOn_recreate] at h
  split at h
  · cases h
  split at h
  · cases h
  split at h
  · cases h
  · cases h
    rfl

/-- An output directory fails to be made because it overlaps the input, and then nothing has changed,
or because of what is on the disk. -/
theorem recreate_error {e : Failure}
    (h : DiskM.runOn d (recreate root input) = (.error e, d')) :
    e = .overlappingRoots input root ∧ d' = d ∨ e = .outputDir root := by
  rw [runOn_recreate] at h
  split at h
  · cases h
    exact .inl ⟨rfl, rfl⟩
  split at h
  · cases h
    exact .inr rfl
  split at h
  · cases h
    exact .inr rfl
  · cases h

/-- An output directory is refused, or fails to be cleared, or is made where its path leads to
nothing. -/
theorem recreate_parts (hd : d.WellFormed) (root input : Path) :
    (∃ x, DiskM.runOn d (recreate root input) = (.error x, d)) ∨
    (∃ x, DiskM.runOn d (recreate root input) = (.error x, d.cleared root)) ∨
    d.overlaps root input = false ∧ (d.cleared root).find? root = none ∧
      DiskM.runOn d (recreate root input) =
        match DiskM.runOn (d.cleared root) (makeDirs root) with
        | (.error _, d₂) => (.error (.outputDir root), d₂)
        | (.ok _, d₂) => (.ok ⟨root⟩, d₂) := by
  have hc := removeDirs_cleared hd root
  rw [runOn_recreate]
  unfold cleared
  cases ho : d.overlaps root input with
  | true => exact .inl ⟨_, rfl⟩
  | false =>
    cases hf : d.find? root with
    | none => exact .inr (.inr ⟨rfl, hf, rfl⟩)
    | some e =>
      simp only [Option.isSome_some, if_true, Bool.false_eq_true, if_false]
      rcases hr : DiskM.runOn d (removeDirs root) with ⟨x | _, d₁⟩
      · exact .inr (.inl ⟨_, rfl⟩)
      · rw [hr] at hc
        exact .inr (.inr ⟨trivial, hc.2 rfl, rfl⟩)

section
variable (hd : d.WellFormed) (ht : root.text ≠ []) (hup : Component.up ∉ root.components)
include hd ht hup

/-- **Making an output directory anew**, for a path without `..`: the disk stays as it is, or it is
cleared, or it is cleared and a chain of directories is made, the whole of it unless this fails. -/
theorem recreate_cases (input : Path) :
    (∃ x, DiskM.runOn d (recreate root input) = (.error x, d)) ∨
    (∃ x, DiskM.runOn d (recreate root input) = (.error x, d.cleared root)) ∨
    root.isValid ∧ ∃ r n names,
      (d.cleared root).Missing (root.start d.workDir) root.steps r n names ∧
      (d.overlaps root input = false ∧
        DiskM.runOn d (recreate root input) =
          (.ok ⟨root⟩, (d.cleared root).addDirs r (n :: names)) ∨
      ∃ x made, made <+: names ∧
        DiskM.runOn d (recreate root input) =
          (.error x, (d.cleared root).addDirs r (n :: made))) := by
  have hc := cleared_cleared hd root
  rcases recreate_parts hd root input with h | h | ⟨ho, hf, hrun⟩
  · exact .inl h
  · exact .inr (.inl h)
  rcases makeDirs_cases hc.wellFormed ht hup with ⟨x, hx, hdir⟩ | ⟨hv, r, n, names, hm, hx⟩
  · rw [hx] at hrun
    cases x with
    | error e => exact .inr (.inl ⟨_, hrun⟩)
    | ok u =>
      obtain ⟨q, hq, he⟩ := isDir_iff.1 (hdir rfl)
      rw [find?_eq_some_iff.2 ⟨q, hq, he⟩] at hf
      cases hf
  · refine .inr (.inr ⟨hv, r, n, names, hc.workDir ▸ hm, ?_⟩)
    rcases hx with hx | ⟨e, made, hpre, hx⟩
    · rw [hx] at hrun
      exact .inl ⟨ho, hrun⟩
    · rw [hx] at hrun
      exact .inr ⟨_, made, hpre, hrun⟩

theorem recreate_ok_chain {input : Path} {tree : OutputTree}
    (h : DiskM.runOn d (recreate root input) = (.ok tree, d')) :
    tree = ⟨root⟩ ∧ root.isValid ∧ ∃ r n names,
      (d.cleared root).Missing (root.start d.workDir) root.steps r n names ∧
      d' = (d.cleared root).addDirs r (n :: names) := by
  rcases recreate_cases hd ht hup input with ⟨x, hx⟩ | ⟨x, hx⟩ | ⟨hv, r, n, names, hm, hx⟩
  · rw [h] at hx; cases hx
  · rw [h] at hx; cases hx
  · rcases hx with ⟨-, hx⟩ | ⟨x, made, -, hx⟩
    · rw [h] at hx
      cases hx
      exact ⟨rfl, hv, r, n, names, hm, rfl⟩
    · rw [h] at hx; cases hx

/-- **Outside the output directory**, making it anew only makes missing directories above its
site. -/
theorem recreate_frame (input : Path) (hq : d.Outside root q) :
    Disk.entry? (DiskM.runOn d (recreate root input)).2 q = d.entry? q ∨
      d.entry? q = none ∧ Disk.entry? (DiskM.runOn d (recreate root input)).2 q = some .dir ∧
        q <+: d.site root := by
  have hc := cleared_cleared hd root
  have hsame := hc.entry?_of_outside hq
  have hchain : ∀ r n names made,
      (d.cleared root).Missing (root.start d.workDir) root.steps r n names → made <+: names →
        Disk.entry? ((d.cleared root).addDirs r (n :: made)) q = d.entry? q ∨
        d.entry? q = none ∧ Disk.entry? ((d.cleared root).addDirs r (n :: made)) q = some .dir ∧
          q <+: d.site root := by
    intro r n names made hm hpre
    rw [entry?_addDirs]
    split
    · next hin =>
      obtain ⟨hnone, hsite⟩ := hc.chain hd hm hq (Missing.mem_chain hin)
      refine .inr ⟨hnone, rfl, ?_⟩
      rw [hsite]
      exact hin.2.2.trans ((List.prefix_append_right_inj r).2 (List.cons_prefix_cons.2 ⟨rfl, hpre⟩))
    · exact .inl hsame
  rcases recreate_cases hd ht hup input with ⟨x, h⟩ | ⟨x, h⟩ | ⟨-, r, n, names, hm, h⟩
  · rw [h]; exact .inl rfl
  · rw [h]; exact .inl hsame
  · rcases h with ⟨-, h⟩ | ⟨x, made, hpre, h⟩
    · rw [h]; exact hchain r n names names hm (List.prefix_refl _)
    · rw [h]; exact hchain r n names made hm hpre

end

end OutputTree

end Declutter
