import Declutter.Disk.Change
import Declutter.Proofs.Path.Components

/-!
# Where files are written

A path that a file is written to need not lead anywhere before. Once the file is written, it leads
to the file, and this tells where it is written: `fileTarget_ok_iff` says that writing to a path
goes to a place exactly if the place is free for a file and the path leads there afterwards. All
links on the way count together, also those that the path ends in.
-/

namespace Declutter.Disk

variable {d d' : Disk} {p q : Place} {s : List Step} {a : Path} {links n : Nat}

/-- A walk to a file ends in a directory that is there. The steps lead to the file once it is
written. -/
theorem leads_of_walkToFile (h : d.walkToFile links p s = .ok q) (f : FileData) :
    d.Free q ∧ d.entry? q.dropLast = some .dir ∧
      ∃ n ≤ links, (d.put q (.file f)).Leads p s n q := by
  fun_induction walkToFile d links p s with
  | case1 => cases h
  | case2 => cases h
  | case3 => cases h
  | case4 => cases h
  | case5 links p s hp ih =>
    obtain ⟨hfree, hdir, n, hn, hl⟩ := ih h
    exact ⟨hfree, hdir, n, hn, .here ((Keeps.put_file hfree f).dir _ hp) hl⟩
  | case6 links p s hp ih =>
    obtain ⟨hfree, hdir, n, hn, hl⟩ := ih h
    exact ⟨hfree, hdir, n, hn, .up ((Keeps.put_file hfree f).dir _ hp) hl⟩
  | case7 => cases h
  | case8 p s hp name t ht links ih =>
    obtain ⟨hfree, hdir, n, hn, hl⟩ := ih h
    have hk := Keeps.put_file hfree f
    exact ⟨hfree, hdir, n + 1, by omega, .link (hk.dir _ hp) (hk.link _ _ ht) hl⟩
  | case9 links p s hp name hs _ ih =>
    obtain ⟨hfree, hdir, n, hn, hl⟩ := ih h
    exact ⟨hfree, hdir, n, hn,
      .down ((Keeps.put_file hfree f).dir _ hp) (hl.dir hs) (by simp) hl⟩
  | case10 => cases h
  | case11 links p s hp name hs hlink hdir =>
    cases h
    obtain rfl : s = [] := not_not.1 hs
    have hfree : d.Free (p ++ [name]) := free_iff.2 ⟨hdir, hlink⟩
    refine ⟨hfree, by rwa [List.dropLast_concat], 0, Nat.zero_le _, ?_⟩
    exact .down ((Keeps.put_file hfree f).dir _ hp) (entry?_put_self d hfree.ne_nil _) (by simp)
      (.done _)

/-- Where steps lead to a file that is written, the walk ends before it is written. -/
theorem Leads.walkToFile (hd : d.WellFormed) (hfree : d.Free q) {f : FileData}
    (h : (d.put q (.file f)).Leads p s n q) (hs : s ≠ []) (hn : n ≤ links) :
    d.walkToFile links p s = .ok q := by
  have hold : ∀ {x e}, Disk.entry? (d.put q (.file f)) x = some e → (∀ g, e ≠ .file g) →
      d.entry? x = some e := fun hx he => hfree.entry?_of_put hx he
  -- steps are left to go wherever a directory is reached, since the end is not one
  have hmore : ∀ {x s m}, d.entry? x = some .dir → (d.put q (.file f)).Leads x s m q → s ≠ [] := by
    rintro x s m hx hl rfl
    cases hl
    exact hfree.not_dir hx
  generalize d.put q (.file f) = d' at h hold hmore
  generalize hq : q = q' at h
  induction h generalizing links with
  | done => exact absurd rfl hs
  | here hp hl ih =>
    subst hq
    have hp := hold hp (by simp)
    rw [Disk.walkToFile, hp]
    exact ih (hmore hp hl) hn rfl
  | up hp hl ih =>
    subst hq
    have hp := hold hp (by simp)
    rw [Disk.walkToFile, hp]
    exact ih (hmore (hd.parent hp) hl) hn rfl
  | @down p name s n q' e hp he hne hl ih =>
    subst hq
    rw [Disk.walkToFile, hold hp (by simp)]
    by_cases hlast : s = []
    · subst hlast
      cases hl
      rcases hfree with hnone | ⟨g, hfile⟩
      · simp [hnone]
      · simp [hfile]
    · have hdir := hold (hl.dir hlast) (by simp)
      simp only [hdir]
      rw [if_pos hlast]
      exact ih hlast hn rfl
  | @link p name s n q' t hp ht hl ih =>
    subst hq
    have hp := hold hp (by simp)
    obtain ⟨l, rfl⟩ : ∃ l, links = l + 1 := ⟨links - 1, by omega⟩
    rw [Disk.walkToFile, hp]
    simp only [hold ht (by simp)]
    refine ih (hmore ?_ hl) (by omega) rfl
    unfold Path.start
    split
    · rfl
    · exact hp

theorem fileTarget_ok (h : d.fileTarget a = .ok q) (f : FileData) :
    d.Free q ∧ d.entry? q.dropLast = some .dir ∧ (d.put q (.file f)).resolve? a = some q := by
  unfold fileTarget at h
  split at h
  · cases h
  next ht =>
  split at h
  · cases h
  next hv =>
  obtain ⟨hfree, hdir, n, hn, hl⟩ := leads_of_walkToFile h f
  exact ⟨hfree, hdir, resolve?_eq_some_iff.2 ⟨ht, by simpa using hv, n, hn, hl⟩⟩

/-- **A file is written where its path leads afterwards**, if that place is free for it. -/
theorem fileTarget_ok_iff (hd : d.WellFormed) (f : FileData) :
    d.fileTarget a = .ok q ↔ d.Free q ∧ (d.put q (.file f)).resolve? a = some q := by
  constructor
  · intro h
    obtain ⟨hfree, -, hres⟩ := fileTarget_ok h f
    exact ⟨hfree, hres⟩
  · rintro ⟨hfree, hres⟩
    obtain ⟨ht, hv, n, hn, hl⟩ := resolve?_eq_some_iff.1 hres
    unfold fileTarget
    rw [if_neg ht, if_neg (by simp [hv])]
    exact Leads.walkToFile hd hfree hl (Path.fullSteps_ne_nil ht) hn

theorem putFile_eq_ok {bytes : List UInt8} : d.putFile a bytes = .ok d' ↔
    ∃ q, d.fileTarget a = .ok q ∧ d' = d.put q (.file (d.rewritten q bytes)) := by
  unfold putFile
  cases d.fileTarget a <;> simp [Except.map, eq_comm]

end Declutter.Disk
