import Mathlib.Data.List.Sort
import Declutter.Proofs.Path.Below
import Declutter.Source.Search

/-!
# Walking a tree

A search goes into directories one after the other, and not into the one left out
(`Config.sourcesIn`). On a disk that is a tree this comes to the same as passing once through all
that is within the root (`sourcesIn_eq_filterMap`): a file is found if it has the extension of a
source, and no directory on the way to it is left out (`Disk.enters_iff`).

What is within a directory is each of its children, and behind it what is within the child
(`within_eq_flatMap`). Both lists are in order, so it is enough that they have the same members.
-/

namespace Declutter

namespace Disk

variable {d : Disk} {p : Place} {n : Text} {e : Entry}

theorem mem_children : (n, e) ∈ d.children p ↔ d.entry? (p ++ [n]) = some e := by
  have hwithin : ([n], e) ∈ d.within p ↔ d.entry? (p ++ [n]) = some e := by simp [mem_within]
  rw [← hwithin, children, List.mem_filterMap]
  constructor
  · rintro ⟨⟨names, e'⟩, hmem, hx⟩
    simp only at hx
    split at hx
    · cases hx
      exact hmem
    · cases hx
  · exact fun hmem => ⟨_, hmem, rfl⟩

theorem children_increasing (d : Disk) (p : Place) :
    (d.children p).Pairwise fun x y => x.1 < y.1 := by
  refine (within_increasing d p).filterMap _ ?_
  rintro ⟨names, e⟩ ⟨names', e'⟩ hlt x hx y hy
  simp only at hlt hx hy
  split at hx
  · split at hy
    · cases hx
      cases hy
      simpa [List.cons_lt_cons_iff] using hlt
    · cases hy
  · cases hx

/-- The names of what is listed for a child begin with its name. -/
theorem exists_cons_of_mem {x : Text × Entry} {y : Place × Entry}
    (h : y ∈ ([x.1], x.2) :: (d.within (p ++ [x.1])).map fun y => (x.1 :: y.1, y.2)) :
    ∃ names, y.1 = x.1 :: names := by
  rcases List.mem_cons.1 h with rfl | h
  · exact ⟨[], rfl⟩
  · obtain ⟨z, -, rfl⟩ := List.mem_map.1 h
    exact ⟨z.1, rfl⟩

/-- **What is within a directory**, child by child. -/
theorem within_eq_flatMap (hd : d.WellFormed) (p : Place) :
    d.within p = (d.children p).flatMap fun x =>
      ([x.1], x.2) :: (d.within (p ++ [x.1])).map fun y => (x.1 :: y.1, y.2) := by
  refine (within_increasing d p).eq_of_mem_iff (List.pairwise_flatMap.2 ⟨?_, ?_⟩) ?_
  · rintro ⟨n, e⟩ -
    refine List.pairwise_cons.2 ⟨fun y hy => ?_, List.pairwise_map.2 ?_⟩
    · obtain ⟨z, hz, rfl⟩ := List.mem_map.1 hy
      obtain ⟨m, names, hcons⟩ := List.exists_cons_of_ne_nil (mem_within.1 hz).1
      simp [hcons]
    · exact (within_increasing d _).imp List.cons_lt_cons_self.2
  · refine (children_increasing d p).imp fun hlt x hx y hy => ?_
    obtain ⟨names, hx⟩ := exists_cons_of_mem hx
    obtain ⟨names', hy⟩ := exists_cons_of_mem hy
    rw [hx, hy]
    exact List.cons_lt_cons_iff.2 (.inl hlt)
  · rintro ⟨names, e⟩
    rw [mem_within, List.mem_flatMap]
    constructor
    · rintro ⟨hne, he⟩
      obtain ⟨n, names, rfl⟩ := List.exists_cons_of_ne_nil hne
      rw [List.append_cons] at he
      by_cases hnames : names = []
      · subst hnames
        rw [List.append_nil] at he
        exact ⟨(n, e), mem_children.2 he, List.mem_cons_self ..⟩
      · refine ⟨(n, .dir), mem_children.2 (hd.dir_of_append hnames he), ?_⟩
        exact List.mem_cons_of_mem _ (List.mem_map.2 ⟨(names, e), mem_within.2 ⟨hnames, he⟩, rfl⟩)
    · rintro ⟨⟨n, e'⟩, hchild, hmem⟩
      rcases List.mem_cons.1 hmem with heq | hmem
      · cases heq
        exact ⟨by simp, mem_children.1 hchild⟩
      · obtain ⟨y, hy, heq⟩ := List.mem_map.1 hmem
        cases heq
        refine ⟨by simp, ?_⟩
        rw [List.append_cons]
        exact (mem_within.1 hy).2

/-- Nothing is within what is not a directory. -/
theorem within_eq_nil (hd : d.WellFormed) (h : d.entry? p ≠ some .dir) : d.within p = [] := by
  refine List.eq_nil_iff_forall_not_mem.2 ?_
  rintro ⟨names, e⟩ hmem
  obtain ⟨hne, he⟩ := mem_within.1 hmem
  rw [hd.eq_none_of_append hne h] at he
  cases he

/-! ## Directories on the way -/

/-- Whether a search that has come to a directory goes on through all directories on the way down
some names. -/
def enters (d : Disk) (skip : Option Path) (path : Path) : List Text → Bool
  | [] => true
  | [_] => true
  | n :: names => !d.isLeftOut skip (path.join ⟨n⟩) && d.enters skip (path.join ⟨n⟩) names

theorem enters_cons {skip : Option Path} {path : Path} {names : List Text} (hne : names ≠ []) :
    d.enters skip path (n :: names) =
      (!d.isLeftOut skip (path.join ⟨n⟩) && d.enters skip (path.join ⟨n⟩) names) := by
  obtain ⟨m, names, rfl⟩ := List.exists_cons_of_ne_nil hne
  rfl

/-- The directories on the way are the first one, and those on the way from there. -/
theorem forall_above_cons {P : Path → Prop} {path : Path} {names : List Text} :
    (∀ above, above <+: n :: names → above ≠ [] → above ≠ n :: names → P (path.descend above)) ↔
      ∀ above, above <+: names → above ≠ names → P ((path.join ⟨n⟩).descend above) := by
  constructor
  · intro h above hpre hne
    exact h (n :: above) (List.cons_prefix_cons.2 ⟨rfl, hpre⟩) (by simp) (by simpa using hne)
  · intro h above hpre hnil hne
    obtain ⟨m, above, rfl⟩ := List.exists_cons_of_ne_nil hnil
    obtain ⟨rfl, hrest⟩ := List.cons_prefix_cons.1 hpre
    exact h above hrest (by simpa using hne)

/-- No directory on the way is left out. -/
theorem enters_iff {skip : Option Path} {path : Path} {names : List Text} :
    d.enters skip path names ↔ ∀ above, above <+: names → above ≠ [] → above ≠ names →
      ¬ d.isLeftOut skip (path.descend above) := by
  induction names generalizing path with
  | nil =>
    simp only [enters, true_iff]
    intro above hpre hne
    exact absurd (List.prefix_nil.1 hpre) hne
  | cons n names ih =>
    rw [forall_above_cons (P := fun above => ¬ d.isLeftOut skip above)]
    by_cases hnil : names = []
    · subst hnil
      simp only [enters, true_iff]
      intro above hpre hne
      exact absurd (List.prefix_nil.1 hpre) hne
    · rw [enters_cons hnil, Bool.and_eq_true, ih, Bool.not_eq_true']
      constructor
      · rintro ⟨hfirst, hrest⟩ above hpre hne
        by_cases habove : above = []
        · subst habove
          exact Bool.eq_false_iff.1 hfirst
        · exact hrest above hpre habove hne
      · intro h
        exact ⟨Bool.eq_false_iff.2 (h [] List.nil_prefix (Ne.symm hnil)),
          fun above hpre _ hne => h above hpre hne⟩

end Disk

/-! ## The walk -/

namespace Config

variable {c : Config} {d : Disk} {skip : Option Path} {place : Place}

/-- What a search makes of an entry, by the names that lead to it from the directory `path`, where
`names` lead from the root of the search. -/
def found? (c : Config) (d : Disk) (skip : Option Path) (path : Path) (names : Place)
    (x : Place × Entry) : Option SourceFile :=
  match x.2 with
  | .file _ =>
    if c.isSource (path.descend x.1) && d.enters skip path x.1 then
      some ⟨path.descend x.1, ⟨[ '/' ].intercalate (names ++ x.1)⟩⟩
    else none
  | _ => none

section
variable {path : Path} {names below : Place} {n : Text}

theorem found?_cons_of_isLeftOut (h : d.isLeftOut skip (path.join ⟨n⟩)) (hne : below ≠ [])
    (e : Entry) : c.found? d skip path names (n :: below, e) = none := by
  cases e with
  | file f => simp [found?, Disk.enters_cons hne, h]
  | dir => rfl
  | link t => rfl

theorem found?_cons (h : ¬ d.isLeftOut skip (path.join ⟨n⟩)) (hne : below ≠ []) (e : Entry) :
    c.found? d skip path names (n :: below, e) =
      c.found? d skip (path.join ⟨n⟩) (names ++ [n]) (below, e) := by
  cases e with
  | file f =>
    have hnames : names ++ n :: below = names ++ [n] ++ below := List.append_cons ..
    simp only [found?, Disk.enters_cons hne, h, hnames, Bool.not_false, Bool.true_and]
    rfl
  | dir => rfl
  | link t => rfl

end

/-- **Walking is filtering.** Going into one directory after the other finds what one pass through
all that is within the first one does. -/
theorem sourcesIn_eq_filterMap (hd : d.WellFormed) (path : Path) (names : Place) :
    c.sourcesIn d skip place path names =
      (d.within (place ++ names)).filterMap (c.found? d skip path names) := by
  induction hlen : (d.within (place ++ names)).length using Nat.strong_induction_on
    generalizing path names with
  | _ k ih =>
  rw [sourcesIn, Disk.within_eq_flatMap hd (place ++ names), List.filterMap_flatMap]
  refine (List.flatMap_subtype ?_).trans (by rw [List.unattach_attach])
  rintro ⟨n, e⟩ hchild
  have hentry := Disk.mem_children.1 hchild
  have hnil : e ≠ .dir → d.within (place ++ names ++ [n]) = [] := fun hne =>
    Disk.within_eq_nil hd fun hdir => hne (Option.some.inj (hentry.symm.trans hdir))
  cases e with
  | file f =>
    rw [hnil (by simp), List.map_nil, List.filterMap_cons, List.filterMap_nil]
    by_cases hsource : c.isSource (path.join ⟨n⟩)
    · simp [found?, Path.descend, Disk.enters, hsource]
    · simp [found?, Path.descend, Disk.enters, hsource]
  | dir =>
    rw [List.filterMap_cons_none rfl, List.filterMap_map]
    by_cases hskip : d.isLeftOut skip (path.join ⟨n⟩)
    · simp only [hskip, if_true]
      refine (List.filterMap_eq_nil_iff.2 fun y hy => ?_).symm
      exact found?_cons_of_isLeftOut hskip (Disk.mem_within.1 hy).1 _
    · simp only [hskip]
      have hlt := Disk.length_within_lt hchild
      rw [List.append_assoc] at hlt ⊢
      rw [ih _ (hlen ▸ hlt) _ _ rfl]
      refine List.filterMap_congr fun y hy => ?_
      exact (found?_cons hskip (Disk.mem_within.1 hy).1 _).symm
  | link t =>
    rw [hnil (by simp)]
    rfl

end Config

end Declutter
