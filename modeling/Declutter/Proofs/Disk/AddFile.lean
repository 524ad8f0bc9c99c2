import Declutter.Proofs.Disk.Equality

/-!
# Files below a directory

`Disk.addFile d r names bytes`: the disk with a file at some names below the directory `r`, and the
directories above it. Two files can be added in either order, if neither is at or above the place of
the other (`addFile_comm`); the directories that they have in common are made by the first.

`Disk.Room`: a new file can be written at some names, since nothing stands in its way. Adding
another file leaves room (`Room.addFile`).
-/

namespace Declutter.Disk

variable {d : Disk} {r q names names' : Place}

/-! ## A file and the directories above it -/

/-- Directories that are there need not be made. -/
theorem addDirs_eq_self (hd : d.WellFormed) (h : d.entry? (r ++ names) = some .dir) :
    d.addDirs r names = d := by
  refine (SameBase.addDirs d r names).eq fun q => ?_
  rw [entry?_addDirs]
  split
  · next hq => rw [hd.dir_of_prefix hq.2.2 h]
  · rfl

/-- The disk with a file at some names below a directory, and the directories above it. -/
def addFile (d : Disk) (r names : Place) (bytes : List UInt8) : Disk :=
  (d.addDirs r names.dropLast).put (r ++ names) (.file { bytes })

theorem entry?_addFile (d : Disk) (r : Place) (hne : names ≠ []) (bytes : List UInt8) (k : Place) :
    Disk.entry? (d.addFile r names bytes) (r ++ k) =
      if k = names then some (.file { bytes })
      else if k ≠ [] ∧ k <+: names then some .dir else d.entry? (r ++ k) := by
  have hchain : k <+: names ↔ k = names ∨ k <+: names.dropLast := by
    conv_lhs => rw [← List.dropLast_append_getLast hne]
    rw [List.prefix_concat_iff, List.dropLast_append_getLast hne]
  rw [addFile, entry?_put _ (by simp [hne]), entry?_addDirs]
  simp only [List.append_cancel_left_eq, List.prefix_append_right_inj, List.prefix_append, true_and,
    ne_eq, List.append_right_eq_self, hchain]
  split
  · rfl
  · next hk => simp only [hk, false_or]

theorem entry?_addFile_outside (d : Disk) (names : Place) (bytes : List UInt8) (hne : names ≠ [])
    (hq : ¬ r <+: q) : Disk.entry? (d.addFile r names bytes) q = d.entry? q := by
  rw [addFile, entry?_put _ (by simp [hne]), if_neg, entry?_addDirs, if_neg fun h => hq h.1]
  rintro rfl
  exact hq (List.prefix_append ..)

theorem SameBase.addFile (d : Disk) (r : Place) (hne : names ≠ []) (bytes : List UInt8) :
    d.SameBase (d.addFile r names bytes) :=
  (SameBase.addDirs d r _).trans (.put _ (by simp [hne]) _)

/-- **Two files can be added in either order**, if neither is at or above the place of the other.
They may have directories in common. -/
theorem addFile_comm (d : Disk) (r : Place) (h : ¬ names <+: names') (h' : ¬ names' <+: names)
    (bytes bytes' : List UInt8) :
    (d.addFile r names bytes).addFile r names' bytes' =
      (d.addFile r names' bytes').addFile r names bytes := by
  have hne : names ≠ [] := by
    rintro rfl
    exact h List.nil_prefix
  have hne' : names' ≠ [] := by
    rintro rfl
    exact h' List.nil_prefix
  have hbase : d.SameBase ((d.addFile r names bytes).addFile r names' bytes') :=
    (SameBase.addFile d r hne bytes).trans (.addFile _ r hne' bytes')
  have hbase' : d.SameBase ((d.addFile r names' bytes').addFile r names bytes) :=
    (SameBase.addFile d r hne' bytes').trans (.addFile _ r hne bytes)
  refine (hbase'.symm.trans hbase).eq fun q => ?_
  by_cases hq : r <+: q
  · obtain ⟨k, rfl⟩ := hq
    rw [entry?_addFile _ r hne', entry?_addFile _ r hne, entry?_addFile _ r hne,
      entry?_addFile _ r hne']
    by_cases hk : k = names
    · subst hk
      have hkne : k ≠ names' := fun hc => h (hc ▸ List.prefix_refl _)
      simp [hkne, h]
    · by_cases hk' : k = names'
      · subst hk'
        simp [hk, h']
      · simp only [hk, hk', if_false]
        split <;> simp_all
  · rw [entry?_addFile_outside _ _ _ hne' hq, entry?_addFile_outside _ _ _ hne hq,
      entry?_addFile_outside _ _ _ hne hq, entry?_addFile_outside _ _ _ hne' hq]

/-! ## Room for a file -/

/-- On the way down some names are directories only, as far as there is anything. -/
def Passable (d : Disk) (r names : Place) : Prop :=
  ∀ k, k <+: names → d.entry? (r ++ k) = none ∨ d.entry? (r ++ k) = some .dir

/-- There is room for a new file at some names below a directory. -/
structure Room (d : Disk) (r names : Place) : Prop where
  way : d.Passable r names.dropLast
  absent : d.entry? (r ++ names) = none

theorem Passable.keeps (h : d.Passable r names) : d.Keeps (d.addDirs r names) := by
  refine .of_subset (workDir_addDirs ..) fun q e he => ?_
  rw [entry?_addDirs]
  split
  · next hq =>
    obtain ⟨k, rfl⟩ := hq.1
    rcases h k ((List.prefix_append_right_inj r).1 hq.2.2) with hnone | hdir
    · rw [hnone] at he
      cases he
    · rw [← he, hdir]
  · exact he

namespace Room

/-- Another file leaves room. -/
theorem addFile (hroom : d.Room r names') (h : ¬ names <+: names') (h' : ¬ names' <+: names)
    (bytes : List UInt8) : (d.addFile r names bytes).Room r names' := by
  have hne : names ≠ [] := by
    rintro rfl
    exact h List.nil_prefix
  refine ⟨fun k hk => ?_, ?_⟩
  · have hpre : k <+: names' := hk.trans (List.dropLast_prefix _)
    rw [entry?_addFile _ r hne, if_neg (by rintro rfl; exact h hpre)]
    split
    · exact .inr rfl
    · exact hroom.way k hk
  · rw [entry?_addFile _ r hne, if_neg (by rintro rfl; exact h (List.prefix_refl _)),
      if_neg fun hc => h' hc.2]
    exact hroom.absent

theorem absent_addDirs (hroom : d.Room r names) (hne : names ≠ []) :
    Disk.entry? (d.addDirs r names.dropLast) (r ++ names) = none := by
  rw [entry?_addDirs, if_neg, hroom.absent]
  rintro ⟨-, -, hpre⟩
  have hlen := hpre.length_le
  have hpos := List.length_pos_iff.2 hne
  simp only [List.length_append, List.length_dropLast] at hlen
  omega

theorem keeps (hroom : d.Room r names) (hne : names ≠ []) (bytes : List UInt8) :
    d.Keeps (d.addFile r names bytes) :=
  hroom.way.keeps.trans (.put_of_none (by simp [hne]) (hroom.absent_addDirs hne) _)

theorem wellFormed (hroom : d.Room r names) (hd : d.WellFormed) (hr : d.entry? r = some .dir)
    (hne : names ≠ []) (hn : ∀ n ∈ names, IsName n) (bytes : List UInt8) :
    (d.addFile r names bytes).WellFormed := by
  have hplace : r ++ names = r ++ names.dropLast ++ [names.getLast hne] := by
    rw [List.append_assoc, List.dropLast_append_getLast hne]
  have habsent := hroom.absent_addDirs hne
  rw [Disk.addFile, hplace]
  rw [hplace] at habsent
  refine (hd.addDirs hr fun n hmem => hn n (List.dropLast_subset _ hmem)).put
    (entry?_addDirs_end hr _) (hn _ (List.getLast_mem hne)) fun hdir => ?_
  rw [habsent] at hdir
  cases hdir

end Room

/-- A walk down ends where nothing is. -/
theorem walk_down_missing {links : Nat} (hr : d.entry? r = some .dir)
    (hway : d.Passable r names)
    (hnone : d.entry? (r ++ names) = none) :
    d.walk true links r (names.map .down) = .error .notFound := by
  induction names generalizing r with
  | nil =>
    rw [List.append_nil, hr] at hnone
    cases hnone
  | cons n names ih =>
    rw [List.map_cons, walk, hr]
    rcases hway [n] (by simp) with hn | hn
    · simp only [hn]
    · simp only [hn]
      refine ih hn (fun k hk => ?_) (by simpa using hnone)
      simpa using hway (n :: k) (List.cons_prefix_cons.2 ⟨rfl, hk⟩)

end Declutter.Disk
