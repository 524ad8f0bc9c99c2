import Mathlib.Data.List.Basic
import Mathlib.Data.List.Induction
import Declutter.Disk.Lookup

/-!
# The entries of a disk

`Disk.WellFormed`: the disk is a tree. Every entry stands in a directory, and its place is made of
names that a file can have. Everything a disk goes through keeps this (`WellFormed.put`,
`WellFormed.eraseIf`), and it makes the places above an entry directories
(`WellFormed.dir_of_append`).

`Disk.Keeps d d'`: what `d` has, `d'` has too, except that the bytes of a file may be others. This
is so where a file is written over a file or where nothing was, which is where the disk is
`Disk.Free` for it.
-/

namespace Declutter

namespace OrderedMap

variable {κ ν : Type} [LT κ] [BEq κ] [LawfulBEq κ]

theorem lookup_insertEntry [DecidableLT κ] [Std.Trichotomous (α := κ) (· < ·)]
    [Std.Irrefl (α := κ) (· < ·)] (k k' : κ) (v : ν) (l : List (κ × ν)) :
    (insertEntry k v l).lookup k' = if k' == k then some v else l.lookup k' := by
  induction l with
  | nil => cases h : k' == k <;> simp [insertEntry, List.lookup_cons, h]
  | cons e l ih =>
    simp only [insertEntry]
    split
    · rw [List.lookup_cons]
      cases k' == k <;> rfl
    split
    · next hlt =>
      have hne : k ≠ e.1 := fun he => Std.Irrefl.irrefl _ (he ▸ hlt)
      rw [List.lookup_cons, ih, List.lookup_cons]
      by_cases hk : k' = k
      · subst hk
        simp [beq_eq_false_iff_ne.2 hne]
      · simp [beq_eq_false_iff_ne.2 hk]
    · next h1 h2 =>
      obtain rfl : k = e.1 := Std.Trichotomous.trichotomous _ _ h1 h2
      rw [List.lookup_cons, List.lookup_cons]
      cases k' == e.1 <;> rfl

theorem get?_insert [DecidableLT κ] [Trans (α := κ) (· < ·) (· < ·) (· < ·)]
    [Std.Trichotomous (α := κ) (· < ·)] [Std.Irrefl (α := κ) (· < ·)] (m : OrderedMap κ ν)
    (k k' : κ) (v : ν) : (m.insert k v).get? k' = if k' == k then some v else m.get? k' :=
  lookup_insertEntry k k' v m.entries

theorem get?_filterKeys (m : OrderedMap κ ν) (test : κ → Bool) (k : κ) :
    (m.filterKeys test).get? k = if test k then m.get? k else none := by
  show (m.entries.filter (test ·.1)).lookup k = if test k then m.entries.lookup k else none
  induction m.entries with
  | nil => simp
  | cons e l ih =>
    obtain ⟨a, b⟩ := e
    rw [List.filter_cons, List.lookup_cons]
    by_cases hk : k = a
    · subst hk
      by_cases ht : test k <;> simp [ht, ih]
    · by_cases ht : test a <;> simp [ht, ih, List.lookup_cons, beq_eq_false_iff_ne.2 hk]

/-- Since the keys increase, each entry is the one that its key finds. -/
theorem mem_entries_iff [Std.Irrefl (α := κ) (· < ·)] {m : OrderedMap κ ν} {k : κ} {v : ν} :
    (k, v) ∈ m.entries ↔ m.get? k = some v := by
  obtain ⟨l, hm⟩ := m
  show (k, v) ∈ l ↔ l.lookup k = some v
  induction l with
  | nil => simp
  | cons e l ih =>
    obtain ⟨he, hl⟩ := List.pairwise_cons.1 hm
    rw [List.mem_cons, List.lookup_cons, ih hl]
    by_cases hk : k = e.1
    · subst hk
      simp only [beq_self_eq_true, Option.some.injEq]
      refine ⟨fun h => ?_, fun h => .inl (h ▸ rfl)⟩
      rcases h with h | h
      · exact h ▸ rfl
      · exact absurd (he _ ((ih hl).2 h)) (Std.Irrefl.irrefl _)
    · simp only [beq_eq_false_iff_ne.2 hk]
      exact ⟨fun h => h.resolve_left fun h => hk (h ▸ rfl), .inr⟩

end OrderedMap

namespace Disk

variable {d d' : Disk} {p q : Place} {e : Entry}

@[simp] theorem entry?_nil (d : Disk) : d.entry? [] = some .dir := rfl

theorem entry?_put (d : Disk) (hp : p ≠ []) (e : Entry) (q : Place) :
    Disk.entry? (d.put p e) q = if q = p then some e else d.entry? q := by
  unfold entry? put
  by_cases hq : q = []
  · simp [hq, Ne.symm hp]
  · simp only [hq, if_false, OrderedMap.get?_insert, beq_iff_eq]

theorem entry?_put_self (d : Disk) (hp : p ≠ []) (e : Entry) :
    Disk.entry? (d.put p e) p = some e := by
  simp [entry?_put d hp]

theorem entry?_eraseIf (d : Disk) (test : Place → Bool) (hq : q ≠ []) :
    Disk.entry? (d.eraseIf test) q = if test q then none else d.entry? q := by
  unfold entry? eraseIf
  simp only [hq, if_false, OrderedMap.get?_filterKeys]
  cases test q <;> rfl

@[simp] theorem workDir_put (d : Disk) (p : Place) (e : Entry) : (d.put p e).workDir = d.workDir :=
  rfl

@[simp] theorem workDir_eraseIf (d : Disk) (test : Place → Bool) :
    (d.eraseIf test).workDir = d.workDir := rfl

/-- What is within a directory, by the places of the disk. -/
theorem mem_within {names : Place} :
    (names, e) ∈ d.within p ↔ names ≠ [] ∧ d.entry? (p ++ names) = some e := by
  unfold within
  rw [List.mem_filterMap]
  constructor
  · rintro ⟨⟨q, e'⟩, hm, h⟩
    simp only at h
    split at h
    · next n ns hpre =>
      obtain ⟨rfl, rfl⟩ : n :: ns = names ∧ e' = e := by simpa using h
      have hq := List.append_eq_of_isPrefixOf?_eq_some hpre
      refine ⟨by simp, ?_⟩
      rw [hq]
      have hne : q ≠ [] := by rw [← hq]; simp
      simpa [ entry?, hne] using OrderedMap.mem_entries_iff.1 hm
    · cases h
  · rintro ⟨hn, h⟩
    have hne : p ++ names ≠ [] := by simp [hn]
    have hm : (p ++ names, e) ∈ d.entries.entries :=
      OrderedMap.mem_entries_iff.2 (by simpa only [ entry?, if_neg hne] using h)
    refine ⟨_, hm, ?_⟩
    have hpre : p.isPrefixOf? (p ++ names) = some names :=
      List.isPrefixOf?_eq_some_iff_append_eq.2 rfl
    obtain ⟨n, ns, rfl⟩ := List.exists_cons_of_ne_nil hn
    simp [hpre]

theorem lt_of_append_lt {s t : Place} (h : p ++ s < p ++ t) : s < t := by
  induction p with
  | nil => exact h
  | cons n p ih => exact ih (List.cons_lt_cons_self.1 h)

/-- What is within a directory is listed by increasing names, as the disk has it. -/
theorem within_increasing (d : Disk) (p : Place) : (d.within p).Pairwise fun x y => x.1 < y.1 := by
  refine List.Pairwise.filterMap _ ?_ d.entries.increasing
  rintro ⟨q, e⟩ ⟨q', e'⟩ hlt x hx y hy
  simp only at hx hy hlt
  split at hx
  · next n ns hpre =>
    split at hy
    · next n' ns' hpre' =>
      cases hx
      cases hy
      rw [← List.append_eq_of_isPrefixOf?_eq_some hpre,
        ← List.append_eq_of_isPrefixOf?_eq_some hpre'] at hlt
      exact lt_of_append_lt hlt
    · cases hy
  · cases hx

/-! ## Trees -/

/-- A name that an entry can have. -/
def IsName (n : Text) : Prop := Path.step? n = some (.down n) ∧ '/' ∉ n ∧ '\x00' ∉ n

instance (n : Text) : Decidable (IsName n) := inferInstanceAs (Decidable (_ ∧ _ ∧ _))

/-- A disk that is a tree: every entry has a place made of names, and stands in a directory. -/
def WellFormed (d : Disk) : Prop :=
  ∀ x ∈ d.entries.entries, (∀ n ∈ x.1, IsName n) ∧ d.entry? x.1.dropLast = some .dir

instance (d : Disk) : Decidable d.WellFormed := inferInstanceAs (Decidable (∀ x ∈ _, _))

theorem wellFormed_iff : d.WellFormed ↔
    ∀ p e, d.entries.get? p = some e → (∀ n ∈ p, IsName n) ∧ d.entry? p.dropLast = some .dir :=
  ⟨fun h p e hp => h (p, e) (OrderedMap.mem_entries_iff.2 hp),
    fun h x hx => h x.1 x.2 (OrderedMap.mem_entries_iff.1 hx)⟩

namespace WellFormed

theorem isName (hd : d.WellFormed) (h : d.entry? p = some e) : ∀ n ∈ p, IsName n := by
  by_cases hp : p = []
  · simp [hp]
  · exact (wellFormed_iff.1 hd p e (by simpa [ entry?, hp] using h)).1

theorem isName_of_append (hd : d.WellFormed) {names : Place}
    (h : d.entry? (p ++ names) = some e) : ∀ n ∈ names, IsName n :=
  fun n hn => hd.isName h n (List.mem_append_right _ hn)

theorem parent (hd : d.WellFormed) (h : d.entry? p = some e) : d.entry? p.dropLast = some .dir := by
  by_cases hp : p = []
  · simp [hp]
  · exact (wellFormed_iff.1 hd p e (by simpa [ entry?, hp] using h)).2

/-- A place above an entry is a directory. -/
theorem dir_of_append (hd : d.WellFormed) {names : Place} (hn : names ≠ [])
    (h : d.entry? (p ++ names) = some e) : d.entry? p = some .dir := by
  induction names using List.reverseRecOn generalizing e with
  | nil => exact absurd rfl hn
  | append_singleton ns n ih =>
    have h1 : d.entry? (p ++ ns) = some .dir := by
      have := hd.parent h
      rwa [← List.append_assoc, List.dropLast_concat] at this
    by_cases hns : ns = []
    · simpa [hns] using h1
    · exact ih hns h1

/-- Nothing is below a place that is not a directory. -/
theorem eq_none_of_append (hd : d.WellFormed) {names : Place} (hn : names ≠ [])
    (h : d.entry? p ≠ some .dir) : d.entry? (p ++ names) = none := by
  cases he : d.entry? (p ++ names) with
  | none => rfl
  | some e => exact absurd (hd.dir_of_append hn he) h

theorem dir_of_prefix (hd : d.WellFormed) (hpre : p <+: q) (h : d.entry? q = some .dir) :
    d.entry? p = some .dir := by
  obtain ⟨names, rfl⟩ := hpre
  by_cases hn : names = []
  · simpa [hn] using h
  · exact hd.dir_of_append hn h

/-- A file is above no other entry. -/
theorem not_isPrefix (hd : d.WellFormed) {f : FileData} (hp : d.entry? p = some (.file f))
    (hq : d.entry? q = some e) (hne : p ≠ q) : ¬ p <+: q := by
  rintro ⟨t, rfl⟩
  have ht : t ≠ [] := by
    rintro rfl
    exact hne (List.append_nil p).symm
  rw [hd.dir_of_append ht hq] at hp
  cases hp

/-- A new entry in a directory keeps the tree, unless a directory is overwritten. -/
theorem put (hd : d.WellFormed) {n : Text} (hp : d.entry? p = some .dir) (hn : IsName n)
    (h : d.entry? (p ++ [n]) = some .dir → e = .dir) : (d.put (p ++ [n]) e).WellFormed := by
  rw [wellFormed_iff]
  intro q e' hq
  have hq' : q ≠ [] → Disk.entry? (d.put (p ++ [n]) e) q = some e' := fun hne => by
    simpa only [ entry?, if_neg hne] using hq
  have key : ∀ r, d.entry? r = some .dir → Disk.entry? (d.put (p ++ [n]) e) r = some .dir := by
    intro r hr
    rw [entry?_put _ (by simp)]
    split
    · next hrp => rw [h (hrp ▸ hr)]
    · exact hr
  by_cases hqp : q = p ++ [n]
  · subst hqp
    refine ⟨fun m hm => ?_, by rw [List.dropLast_concat]; exact key p hp⟩
    rcases List.mem_append.1 hm with hm | hm
    · exact hd.isName hp m hm
    · rw [List.mem_singleton.1 hm]; exact hn
  · have hold : d.entries.get? q = some e' := by
      have : (d.put (p ++ [n]) e).entries.get? q = d.entries.get? q := by
        simp [Disk.put, OrderedMap.get?_insert, hqp]
      rw [← this]; exact hq
    obtain ⟨h1, h2⟩ := wellFormed_iff.1 hd q e' hold
    exact ⟨h1, key _ h2⟩

/-- Taking entries away keeps the tree, if with a directory all that is in it goes. -/
theorem eraseIf (hd : d.WellFormed) {test : Place → Bool}
    (h : ∀ q e, d.entry? q = some e → test q.dropLast = true → q ≠ [] → test q = true) :
    (d.eraseIf test).WellFormed := by
  rw [wellFormed_iff]
  intro q e hq
  rw [Disk.eraseIf, OrderedMap.get?_filterKeys] at hq
  split at hq
  · next ht =>
    obtain ⟨h1, h2⟩ := wellFormed_iff.1 hd q e hq
    refine ⟨h1, ?_⟩
    by_cases hn : q.dropLast = []
    · rw [hn]; rfl
    · rw [entry?_eraseIf _ _ hn, if_neg ?_]
      · exact h2
      · intro hc
        have hne : q ≠ [] := fun he => hn (by rw [he]; rfl)
        have := h q e (by simpa only [ entry?, if_neg hne] using hq) hc hne
        simp [this] at ht
  · cases hq

end WellFormed

/-! ## Disks with more on them -/

/-- What the disk `d` has, `d'` has too; only the bytes of files may be others. -/
structure Keeps (d d' : Disk) : Prop where
  workDir : d'.workDir = d.workDir
  dir : ∀ p, d.entry? p = some .dir → d'.entry? p = some .dir
  link : ∀ p t, d.entry? p = some (.link t) → d'.entry? p = some (.link t)
  file : ∀ p f, d.entry? p = some (.file f) → ∃ f', d'.entry? p = some (.file f')

/-- A file can be written at a place: there is one already, or nothing. -/
def Free (d : Disk) (p : Place) : Prop := d.entry? p = none ∨ ∃ f, d.entry? p = some (.file f)

theorem free_iff :
    d.Free p ↔ d.entry? p ≠ some .dir ∧ ∀ t, d.entry? p ≠ some (.link t) := by
  unfold Free
  rcases d.entry? p with _ | _ | _ | _ <;> simp

theorem Free.not_dir (h : d.Free p) : d.entry? p ≠ some .dir := (free_iff.1 h).1

theorem Free.not_link (h : d.Free p) (t : Path) : d.entry? p ≠ some (.link t) := (free_iff.1 h).2 t

/-- The root is a directory. -/
theorem Free.ne_nil (h : d.Free p) : p ≠ [] := by
  rintro rfl
  exact h.not_dir rfl

/-- Only files are new where a file is written. -/
theorem Free.entry?_of_put (h : d.Free p) {f : FileData}
    (hq : Disk.entry? (d.put p (.file f)) q = some e) (he : ∀ g, e ≠ .file g) :
    d.entry? q = some e := by
  rw [entry?_put d h.ne_nil] at hq
  split at hq
  · cases hq
    exact absurd rfl (he f)
  · exact hq

namespace Keeps

theorem refl (d : Disk) : d.Keeps d := ⟨rfl, fun _ h => h, fun _ _ h => h, fun _ f h => ⟨f, h⟩⟩

theorem trans {d'' : Disk} (h : d.Keeps d') (h' : d'.Keeps d'') : d.Keeps d'' where
  workDir := h'.workDir.trans h.workDir
  dir p hp := h'.dir p (h.dir p hp)
  link p t hp := h'.link p t (h.link p t hp)
  file p f hp := by
    obtain ⟨f', hf⟩ := h.file p f hp
    exact h'.file p f' hf

theorem of_subset (hw : d'.workDir = d.workDir)
    (h : ∀ p e, d.entry? p = some e → d'.entry? p = some e) : d.Keeps d' :=
  ⟨hw, fun p => h p _, fun p _ => h p _, fun p f hf => ⟨f, h p _ hf⟩⟩

theorem put_of_none (hp : p ≠ []) (h : d.entry? p = none) (e : Entry) : d.Keeps (d.put p e) := by
  refine of_subset rfl ?_
  intro q e' hq
  rw [entry?_put d hp, if_neg]
  · exact hq
  · rintro rfl
    rw [h] at hq
    cases hq

theorem put_file (h : d.Free p) (f : FileData) : d.Keeps (d.put p (.file f)) := by
  have hother : ∀ q e, d.entry? q = some e → q ≠ p →
      Disk.entry? (d.put p (.file f)) q = some e := by
    intro q e hq hne
    rw [entry?_put d h.ne_nil, if_neg hne, hq]
  refine ⟨rfl, fun q hq => hother q _ hq ?_, fun q t hq => hother q _ hq ?_, fun q f' hq => ?_⟩
  · rintro rfl
    exact h.not_dir hq
  · rintro rfl
    exact h.not_link t hq
  · by_cases hne : q = p
    · subst hne
      exact ⟨f, entry?_put_self d h.ne_nil _⟩
    · exact ⟨f', hother q _ hq hne⟩

end Keeps

end Disk

end Declutter
