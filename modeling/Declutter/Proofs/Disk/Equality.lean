import Mathlib.Data.List.Sort
import Declutter.Proofs.Disk.Growth

/-!
# Disks that are equal

Increasing maps with the same values are equal (`OrderedMap.eq_of_get?`), and so are disks with the
same entries, if they have the same base (`SameBase.eq`): the working directory, and whatever is
recorded at the root, which no lookup reads and no action changes.

`Disk.AddedAt d r d'`: the disk `d'` is `d` with something new at the place `r`. Once that is gone
again, the disk is `d` (`AddedAt.eq`).
-/

namespace Declutter

theorem OrderedMap.eq_of_get? {κ ν : Type} [LT κ] [BEq κ] [LawfulBEq κ]
    [Std.Irrefl (α := κ) (· < ·)] [Std.Asymm (α := κ) (· < ·)] {m m' : OrderedMap κ ν}
    (h : ∀ k, m.get? k = m'.get? k) : m = m' := by
  have : Std.Irrefl fun a b : κ × ν => a.1 < b.1 := ⟨fun a => Std.Irrefl.irrefl a.1⟩
  have : Std.Asymm fun a b : κ × ν => a.1 < b.1 := ⟨fun a b => Std.Asymm.asymm a.1 b.1⟩
  have hentries : m.entries = m'.entries := by
    refine m.increasing.eq_of_mem_iff m'.increasing ?_
    intro ⟨k, v⟩
    rw [mem_entries_iff, mem_entries_iff, h]
  cases m
  cases m'
  cases hentries
  rfl

namespace Disk

variable {d d' d'' : Disk} {p q r : Place}

/-! ## The base of a disk -/

/-- The disks have the same working directory and the same record at the root. -/
structure SameBase (d d' : Disk) : Prop where
  workDir : d'.workDir = d.workDir
  root : d'.entries.get? [] = d.entries.get? []

namespace SameBase

theorem refl (d : Disk) : d.SameBase d := ⟨rfl, rfl⟩

theorem trans (h : d.SameBase d') (h' : d'.SameBase d'') : d.SameBase d'' :=
  ⟨h'.workDir.trans h.workDir, h'.root.trans h.root⟩

theorem symm (h : d.SameBase d') : d'.SameBase d := ⟨h.workDir.symm, h.root.symm⟩

theorem put (d : Disk) (hp : p ≠ []) (e : Entry) : d.SameBase (d.put p e) := by
  refine ⟨rfl, ?_⟩
  show (d.entries.insert p e).get? [] = _
  rw [OrderedMap.get?_insert, if_neg (by simpa using hp.symm)]

theorem eraseIf (d : Disk) {test : Place → Bool} (ht : test [] = false) :
    d.SameBase (d.eraseIf test) := by
  refine ⟨rfl, ?_⟩
  show (d.entries.filterKeys (!test ·)).get? [] = _
  rw [OrderedMap.get?_filterKeys, ht]
  rfl

theorem addDirs (d : Disk) (r names : Place) : d.SameBase (d.addDirs r names) := by
  induction names using List.reverseRecOn with
  | nil => exact .refl d
  | append_singleton names n ih =>
    rw [addDirs_concat]
    exact ih.trans (.put _ (by simp) _)

/-- **Disks with the same entries** are equal, if they have the same base. -/
theorem eq (h : d.SameBase d') (he : ∀ q, d'.entry? q = d.entry? q) : d' = d := by
  have hentries : d'.entries = d.entries := by
    refine OrderedMap.eq_of_get? fun q => ?_
    by_cases hq : q = []
    · rw [hq, h.root]
    · have := he q
      simpa only [ entry?, if_neg hq] using this
  have hwork := h.workDir
  cases d
  cases d'
  cases hentries
  cases hwork
  rfl

end SameBase

/-! ## Something new at a place -/

/-- The second disk is the first one with something at the place `r`, where the first has
nothing. -/
structure AddedAt (d : Disk) (r : Place) (d' : Disk) : Prop where
  base : d.SameBase d'
  absent : ∀ q, r <+: q → d.entry? q = none
  same : ∀ q, ¬ r <+: q → d'.entry? q = d.entry? q

namespace AddedAt

theorem put (hd : d.WellFormed) (hr : r ≠ []) (hnone : d.entry? r = none) (e : Entry) :
    d.AddedAt r (d.put r e) := by
  refine ⟨.put d hr e, ?_, fun q hq => ?_⟩
  · rintro q ⟨t, rfl⟩
    by_cases ht : t = []
    · rw [ht, List.append_nil, hnone]
    · exact hd.eq_none_of_append ht (by rw [hnone]; simp)
  · rw [entry?_put _ hr, if_neg]
    rintro rfl
    exact hq (List.prefix_refl _)

/-- More may change at the place. -/
theorem trans (h : d.AddedAt r d') (hbase : d'.SameBase d'')
    (hsame : ∀ q, ¬ r <+: q → d''.entry? q = d'.entry? q) : d.AddedAt r d'' :=
  ⟨h.base.trans hbase, h.absent, fun q hq => (hsame q hq).trans (h.same q hq)⟩

theorem keeps (h : d.AddedAt r d') : d.Keeps d' := by
  refine .of_subset h.base.workDir fun q e hq => ?_
  rw [h.same q, hq]
  intro hpre
  rw [h.absent q hpre] at hq
  cases hq

theorem eraseIf (h : d.AddedAt r d') {test : Place → Bool} (ht : ∀ q, test q → q ≠ [] ∧ r <+: q) :
    d.AddedAt r (d'.eraseIf test) := by
  refine h.trans (.eraseIf _ ?_) fun q hq => ?_
  · exact Bool.eq_false_iff.2 fun hnil => (ht [] hnil).1 rfl
  · by_cases hnil : q = []
    · rw [hnil]
      rfl
    · rw [entry?_eraseIf _ _ hnil, if_neg fun hc => hq (ht q hc).2]

/-- **What was added is gone**, and the disk is the first one again. -/
theorem eq (h : d.AddedAt r d') (hgone : ∀ q, r <+: q → d'.entry? q = none) : d' = d := by
  refine h.base.eq fun q => ?_
  by_cases hq : r <+: q
  · rw [hgone q hq, h.absent q hq]
  · exact h.same q hq

end AddedAt

end Disk

end Declutter
