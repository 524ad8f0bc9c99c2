import Declutter.Proofs.Disk.Leads
import Declutter.Proofs.Text.Pieces

/-!
# Components and steps of paths

A path is read in two ways: as components, which its parents and joins are about, and as steps,
which a disk follows. `Path.Canonical` says which lists are the components of a path. Of such a
list, `ofComponents` spells a path with just these components (`components_ofComponents`), and its
steps are theirs (`steps_ofComponents`). The steps of any path are those of its components, up to
steps that stay (`moving_steps`).
-/

namespace Declutter

/-- The step that a component is; the slash at the front is none. -/
def Component.step? : Component → Option Step
  | .root => none
  | .here => some .here
  | .up => some .up
  | .name n => some (.down n)

/-- The name that a component is. -/
def Component.name? : Component → Option Text
  | .name n => some n
  | _ => none

namespace Path

variable {p q : Path} {c : Component} {cs : List Component}

/-- A component that can stand away from the front of a path. -/
def Inner (c : Component) : Prop := component? c.text = some c ∧ '/' ∉ c.text

/-- The components of a path: after the first, all are inner ones. -/
def Canonical (cs : List Component) : Prop :=
  (∀ c ∈ cs.head?, c = .root ∨ c = .here ∨ Inner c) ∧ ∀ c ∈ cs.tail, Inner c

/-- The components away from the front. -/
def inner (p : Path) : List Component := p.pieces.filterMap component?

/-! ## Pieces -/

theorem text_of_component? {l : Text} (h : component? l = some c) : c.text = l := by
  unfold component? at h
  split at h
  · cases h
  split at h
  · next hl => cases h; rw [hl]; rfl
  · cases h; rfl

theorem step?_eq_component? {l : Text} (h : component? l = some c) : step? l = c.step? := by
  unfold component? at h
  unfold step?
  split at h
  · cases h
  · next hl =>
    rw [not_or] at hl
    rw [if_neg hl.1, if_neg hl.2]
    split at h
    · next hu => cases h; rw [if_pos hu]; rfl
    · next hu => cases h; rw [if_neg hu]; rfl

theorem inner_of_mem (h : c ∈ p.inner) : Inner c := by
  obtain ⟨l, hl, hc⟩ := List.mem_filterMap.1 h
  have ht := text_of_component? hc
  exact ⟨by rw [ht]; exact hc, by rw [ht]; exact Text.not_mem_of_mem_splitOn hl⟩

theorem Inner.text_ne (h : Inner c) : c.text ≠ [] ∧ c.text ≠ ['.'] := by
  have h1 := h.1
  unfold component? at h1
  split at h1
  · cases h1
  · next hl => exact not_or.1 hl

theorem Inner.ne_here (h : Inner c) : c ≠ .here := by
  rintro rfl
  exact h.text_ne.2 rfl

theorem Inner.ne_root (h : Inner c) : c ≠ .root := by
  rintro rfl
  exact h.2 (by simp [Component.text])

theorem Inner.step? (h : Inner c) : Path.step? c.text = c.step? := step?_eq_component? h.1

/-- An inner component is the directory above, or a name. -/
theorem Inner.cases (h : Inner c) : c = .up ∨ ∃ n, c = .name n ∧ Path.step? n = some (.down n) := by
  cases c with
  | root => exact absurd rfl h.ne_root
  | here => exact absurd rfl h.ne_here
  | up => exact .inl rfl
  | name n => exact .inr ⟨n, rfl, h.step?⟩

theorem components_eq (p : Path) : p.components =
    (if p.isAbsolute then [.root] else if p.pieces.head? = some ['.'] then [.here] else []) ++
      p.inner := by
  unfold components inner
  split
  · rfl
  split <;> rfl

theorem canonical_components (p : Path) : Canonical p.components := by
  rw [components_eq]
  have h : ∀ c ∈ p.inner, Inner c := fun c => inner_of_mem
  have ht : ∀ c ∈ p.inner.tail, Inner c := fun c hc => h c (List.mem_of_mem_tail hc)
  have hh : ∀ c ∈ p.inner.head?, Inner c := fun c hc => h c (List.mem_of_mem_head? hc)
  unfold Canonical
  split
  · simpa using h
  split
  · simpa using h
  · exact ⟨fun c hc => .inr (.inr (hh c hc)), ht⟩

theorem Canonical.take (h : Canonical cs) (n : Nat) : Canonical (cs.take n) := by
  cases cs with
  | nil => simpa using h
  | cons c cs =>
    cases n with
    | zero => exact ⟨by simp, by simp⟩
    | succ n => exact ⟨h.1, fun a ha => h.2 a (List.mem_of_mem_take ha)⟩

/-- The first piece of a relative path is not empty, unless the path is. -/
theorem pieces_of_relative (h : p.text ≠ []) (ha : ¬ p.isAbsolute) :
    ∃ a l ls, p.pieces = (a :: l) :: ls := by
  obtain ⟨a, t, ht⟩ := List.exists_cons_of_ne_nil h
  have hne : a ≠ '/' := by simpa [isAbsolute, ht] using ha
  obtain ⟨l, ls, hl⟩ := List.exists_cons_of_ne_nil (List.splitOn_ne_nil '/' t)
  refine ⟨a, l, ls, ?_⟩
  rw [pieces, ht, List.splitOn_cons_eq_if_modifyHead, if_neg (by simpa using hne), hl]
  rfl

theorem components_ne_nil (h : p.text ≠ []) : p.components ≠ [] := by
  rw [components_eq]
  split
  · simp
  next ha =>
  split
  · simp
  next hh =>
  obtain ⟨a, l, ls, hp⟩ := pieces_of_relative h ha
  have hc : component? (a :: l) ≠ none := by
    rw [hp, List.head?_cons, Option.some.injEq] at hh
    unfold component?
    rw [if_neg (by simp [hh])]
    split <;> simp
  obtain ⟨c, hc⟩ := Option.ne_none_iff_exists'.1 hc
  simp [inner, hp, hc]

theorem step?_ne_none {l : Text} (hl : l ≠ []) : ∃ a, Path.step? l = some a := by
  unfold Path.step?
  rw [if_neg hl]
  split
  · exact ⟨_, rfl⟩
  split <;> exact ⟨_, rfl⟩

/-! ## Spelling components -/

theorem isAbsolute_iff : p.isAbsolute ↔ p.components.head? = some .root := by
  rw [components_eq]
  by_cases h : p.isAbsolute
  · simp [h]
  · simp only [h, Bool.false_eq_true, if_false, false_iff]
    split
    · simp
    · intro hc
      rw [List.nil_append] at hc
      exact (inner_of_mem (List.mem_of_mem_head? hc)).ne_root rfl

theorem inner_map_text (h : ∀ c ∈ cs, Inner c) :
    (cs.map (·.text)).filterMap component? = cs ∧
      (cs.map (·.text)).filterMap Path.step? = cs.filterMap (·.step?) := by
  induction cs with
  | nil => simp
  | cons c cs ih =>
    obtain ⟨h1, h2⟩ := ih fun a ha => h a (List.mem_cons_of_mem _ ha)
    have hc := h c (List.mem_cons_self ..)
    simp only [List.map_cons, List.filterMap_cons, hc.1, hc.step?, h1, h2, and_self]

theorem pieces_ofComponents_inner (h : ∀ c ∈ cs, Inner c) (hcs : cs ≠ []) :
    ([ '/' ].intercalate (cs.map (·.text))).splitOn '/' = cs.map (·.text) := by
  refine List.splitOn_intercalate _ ?_ (by simpa using hcs)
  intro l hl
  obtain ⟨c, hc, rfl⟩ := List.mem_map.1 hl
  exact (h c hc).2

/-- What the path of some components is like, by its first component. -/
theorem pieces_ofComponents (h : Canonical cs) (hcs : cs ≠ []) :
    (ofComponents cs).pieces =
      if cs.head? = some .root then [] :: (if cs.tail = [] then [[]] else cs.tail.map (·.text))
      else cs.map (·.text) := by
  obtain ⟨c, cs, rfl⟩ := List.exists_cons_of_ne_nil hcs
  have ht : ∀ c ∈ cs, Inner c := h.2
  have hc : c = .root ∨ c = .here ∨ Inner c := h.1 c rfl
  unfold pieces
  rcases hc with rfl | hc
  · show ('/' :: [ '/' ].intercalate (cs.map (·.text))).splitOn '/' = _
    rw [List.splitOn_cons_eq_if_modifyHead]
    by_cases hn : cs = []
    · simp [hn]
    · simp [hn, pieces_ofComponents_inner ht hn]
  · have hroot : c ≠ .root := by
      rcases hc with rfl | hc
      · simp
      · exact hc.ne_root
    have heq : ofComponents (c :: cs) = ⟨[ '/' ].intercalate ((c :: cs).map (·.text))⟩ := by
      cases c <;> first | rfl | exact absurd rfl hroot
    rw [heq]
    simp only [List.head?_cons, Option.some.injEq, hroot, if_false]
    refine List.splitOn_intercalate _ ?_ (by simp)
    intro l hl
    obtain ⟨a, ha, rfl⟩ := List.mem_map.1 hl
    rcases List.mem_cons.1 ha with rfl | ha
    · rcases hc with rfl | hc
      · simp [Component.text]
      · exact hc.2
    · exact (ht a ha).2

theorem isAbsolute_ofComponents (h : Canonical cs) :
    (ofComponents cs).isAbsolute ↔ cs.head? = some .root := by
  cases cs with
  | nil => simp [ofComponents, isAbsolute]
  | cons c cs =>
    rcases h.1 c rfl with rfl | hc
    · simp [ofComponents, isAbsolute]
    · have hne : c ≠ .root := by
        rcases hc with rfl | hc
        · simp
        · exact hc.ne_root
      have hhead : ∃ a t, c.text = a :: t ∧ a ≠ '/' := by
        rcases hc with rfl | hc
        · exact ⟨'.', [], rfl, by decide⟩
        · obtain ⟨a, t, ht⟩ := List.exists_cons_of_ne_nil hc.text_ne.1
          exact ⟨a, t, ht, fun ha => hc.2 (by simp [ht, ha])⟩
      obtain ⟨a, t, ht, ha⟩ := hhead
      have hof : (ofComponents (c :: cs)).text.head? = some a := by
        have : ofComponents (c :: cs) = ⟨[ '/' ].intercalate ((c :: cs).map (·.text))⟩ := by
          cases c <;> first | rfl | exact absurd rfl hne
        rw [this]
        cases cs <;> simp [ht]
      simp [isAbsolute, hof, ha, hne]

theorem head?_map_text_eq_here (h : Canonical cs) :
    (cs.map (·.text)).head? = some ['.'] ↔ cs.head? = some .here := by
  cases cs with
  | nil => simp
  | cons c cs =>
    simp only [List.map_cons, List.head?_cons, Option.some.injEq]
    refine ⟨fun hc => ?_, fun hc => by rw [hc]; rfl⟩
    rcases h.1 c rfl with rfl | rfl | hi
    · simp [Component.text] at hc
    · rfl
    · exact absurd hc hi.text_ne.2

/-- **The path of some components has these components.** -/
theorem components_ofComponents (h : Canonical cs) : (ofComponents cs).components = cs := by
  by_cases hcs : cs = []
  · subst hcs; simp [ofComponents, components, pieces, isAbsolute, component?]
  have hp := pieces_ofComponents h hcs
  have ha := isAbsolute_ofComponents h
  have hh := head?_map_text_eq_here h
  obtain ⟨c, cs, rfl⟩ := List.exists_cons_of_ne_nil hcs
  have ht := (inner_map_text (show ∀ c ∈ cs, Inner c from h.2)).1
  rw [components_eq, inner]
  rcases h.1 c rfl with rfl | rfl | hc
  · rw [if_pos (ha.2 rfl), hp]
    by_cases hn : cs = []
    · simp [hn, component?]
    · simpa [hn, component?] using ht
  · have hna : ¬ (ofComponents (.here :: cs)).isAbsolute := fun hc => by simpa using ha.1 hc
    simp only [List.head?_cons, reduceCtorEq, Option.some.injEq, if_false] at hp
    rw [if_neg hna, hp, if_pos (hh.2 rfl)]
    simpa [component?, Component.text] using ht
  · have hna : ¬ (ofComponents (c :: cs)).isAbsolute :=
      fun hc' => hc.ne_root (by simpa using ha.1 hc')
    have hnh : ¬ ((c :: cs).map (·.text)).head? = some ['.'] :=
      fun hc' => hc.ne_here (by simpa using hh.1 hc')
    simp only [List.head?_cons, Option.some.injEq, hc.ne_root, if_false] at hp
    rw [if_neg hna, hp, if_neg hnh, List.nil_append]
    exact (inner_map_text fun a ha => by
      rcases List.mem_cons.1 ha with rfl | ha
      · exact hc
      · exact h.2 a ha).1

/-- **The steps of the path of some components are the steps of these components.** -/
theorem steps_ofComponents (h : Canonical cs) :
    (ofComponents cs).steps = cs.filterMap (·.step?) := by
  by_cases hcs : cs = []
  · subst hcs; simp [ofComponents, steps, pieces, Path.step?]
  have hp := pieces_ofComponents h hcs
  obtain ⟨c, cs, rfl⟩ := List.exists_cons_of_ne_nil hcs
  have ht := (inner_map_text (show ∀ c ∈ cs, Inner c from h.2)).2
  rw [steps, hp]
  rcases h.1 c rfl with rfl | rfl | hc
  · by_cases hn : cs = []
    · simp [hn, Path.step?, Component.step?]
    · simpa [hn, Path.step?, Component.step?] using ht
  · simpa [Path.step?, Component.text, Component.step?] using ht
  · simp only [List.head?_cons, Option.some.injEq, hc.ne_root, if_false, List.map_cons,
      List.filterMap_cons, hc.step?, ht]

theorem text_ofComponents_ne_nil (h : Canonical cs) (hcs : cs ≠ []) :
    (ofComponents cs).text ≠ [] := by
  intro hc
  have h1 := components_ofComponents h
  have : ofComponents cs = ⟨[]⟩ := congrArg Path.mk hc
  rw [this] at h1
  exact hcs (by rw [← h1]; simp [components, pieces, isAbsolute, component?])

theorem isValid_ofComponents (hv : p.isValid) (h : ∀ c ∈ cs, c ∈ p.components) :
    (ofComponents cs).isValid := by
  have hc : ∀ c ∈ p.components, '\x00' ∉ c.text := by
    intro c hc
    rw [components_eq] at hc
    rcases List.mem_append.1 hc with hc | hc
    · have : c = .root ∨ c = .here := by
        split at hc
        · exact .inl (by simpa using hc)
        split at hc
        · exact .inr (by simpa using hc)
        · simp at hc
      rcases this with rfl | rfl <;> decide
    · obtain ⟨l, hl, hlc⟩ := List.mem_filterMap.1 hc
      rw [text_of_component? hlc]
      intro h0
      simp only [isValid, decide_eq_true_eq] at hv
      exact hv (Text.mem_of_mem_splitOn hl h0)
  have hi : ∀ cs' : List Component, (∀ c ∈ cs', c ∈ cs) →
      '\x00' ∉ [ '/' ].intercalate (cs'.map (·.text)) := by
    intro cs' hcs' h0
    rcases Text.mem_intercalate h0 with h0 | ⟨l, hl, h0⟩
    · exact absurd h0 (by decide)
    · obtain ⟨c, hc', rfl⟩ := List.mem_map.1 hl
      exact hc c (h c (hcs' c hc')) h0
  simp only [isValid, decide_eq_true_eq]
  unfold ofComponents
  split
  · simp only [List.mem_cons, not_or]
    exact ⟨by decide, hi _ fun c hc => List.mem_cons_of_mem _ hc⟩
  · exact hi cs fun c hc => hc

/-- A part of a path, from its front, starts where the path does. -/
theorem start_ofComponents (h : Canonical cs) (hp : p.components.head? = cs.head?) (base : Place) :
    (ofComponents cs).start base = p.start base := by
  have : (ofComponents cs).isAbsolute = p.isAbsolute := by
    rw [Bool.eq_iff_iff, isAbsolute_ofComponents h, isAbsolute_iff, hp]
  rw [start, start, this]

/-! ## Steps of any path -/

theorem moving_filterMap_pieces (ls : List Text) :
    Disk.moving (ls.filterMap Path.step?) = (ls.filterMap component?).filterMap (·.step?) := by
  induction ls with
  | nil => rfl
  | cons l ls ih =>
    cases hc : component? l with
    | none =>
      have : Path.step? l = none ∨ Path.step? l = some .here := by
        unfold component? at hc
        unfold Path.step?
        split at hc
        · next hl => rcases hl with hl | hl <;> simp [hl]
        · split at hc <;> cases hc
      rcases this with hs | hs <;> simp [hs, hc, Disk.moving_cons_here, ih]
    | some c =>
      have hs := step?_eq_component? hc
      have hne : c.step? ≠ none ∧ c.step? ≠ some .here := by
        unfold component? at hc
        split at hc
        · cases hc
        · split at hc <;> cases hc <;> simp [Component.step?]
      obtain ⟨a, ha⟩ := Option.ne_none_iff_exists'.1 hne.1
      rw [List.filterMap_cons, List.filterMap_cons, hs, hc, ha]
      simp only [List.filterMap_cons, ha]
      rw [Disk.moving_cons_of_ne (fun he => hne.2 (he ▸ ha)), ih]

/-- The steps of a path that go somewhere else. -/
theorem moving_steps (p : Path) : Disk.moving p.steps = p.inner.filterMap (·.step?) :=
  moving_filterMap_pieces p.pieces

theorem moving_components (p : Path) :
    Disk.moving (p.components.filterMap (·.step?)) = Disk.moving p.steps := by
  have hi : ∀ a ∈ p.inner.filterMap (·.step?), a ≠ Step.here := by
    rw [← moving_steps]
    intro a ha
    simpa using (List.mem_filter.1 ha).2
  rw [moving_steps, components_eq, List.filterMap_append, Disk.moving_append]
  have : Disk.moving (p.inner.filterMap (·.step?)) = p.inner.filterMap (·.step?) :=
    List.filter_eq_self.2 fun a ha => by simpa using hi a ha
  rw [this]
  split
  · rfl
  split <;> rfl

/-- The names in the steps of a path are names that an entry can have. -/
theorem isName_of_mem_steps (hv : p.isValid) {n : Text} (h : .down n ∈ p.steps) :
    Disk.IsName n := by
  obtain ⟨l, hl, hs⟩ := List.mem_filterMap.1 h
  have hn : l = n := by
    unfold Path.step? at hs
    split at hs
    · cases hs
    split at hs
    · cases hs
    split at hs
    · cases hs
    · simpa using hs
  subst hn
  refine ⟨hs, Text.not_mem_of_mem_splitOn hl, ?_⟩
  intro h0
  simp only [isValid, decide_eq_true_eq] at hv
  exact hv (Text.mem_of_mem_splitOn hl h0)

/-- A path that is spelled at all has a step, if only the one that its slash asks for. -/
theorem fullSteps_ne_nil (h : p.text ≠ []) : p.fullSteps ≠ [] := by
  unfold fullSteps
  by_cases hs : p.endsInSlash
  · simp [hs]
  have hc : p.text.getLast h ≠ '/' := by
    intro hc
    simp [endsInSlash, List.getLast?_eq_getLast_of_ne_nil h, hc] at hs
  have hmem : p.text.getLast h ∈ [ '/' ].intercalate p.pieces := by
    rw [pieces, List.intercalate_splitOn]
    exact List.getLast_mem h
  rcases Text.mem_intercalate hmem with he | ⟨l, hl, hcl⟩
  · exact absurd he hc
  · obtain ⟨a, ha⟩ := step?_ne_none (List.ne_nil_of_mem hcl)
    have : a ∈ p.steps := List.mem_filterMap.2 ⟨l, hl, ha⟩
    intro hc
    rw [(List.append_eq_nil_iff.1 hc).1] at this
    cases this

theorem up_mem_steps_iff : Step.up ∈ p.steps ↔ Component.up ∈ p.components := by
  have h1 : Step.up ∈ p.steps ↔ Step.up ∈ Disk.moving p.steps := by simp [Disk.moving]
  rw [h1, moving_steps, List.mem_filterMap, components_eq, List.mem_append]
  constructor
  · rintro ⟨c, hc, hs⟩
    cases c with
    | up => exact .inr hc
    | _ => cases hs
  · rintro (h | h)
    · split at h
      · simp at h
      split at h <;> simp at h
    · exact ⟨.up, h, rfl⟩

/-! ## Paths made of names -/

theorem inner_name {n : Text} (h : Disk.IsName n) : Inner (.name n) := by
  obtain ⟨hs, hslash, -⟩ := h
  refine ⟨?_, hslash⟩
  unfold Path.step? at hs
  unfold component?
  split at hs
  · cases hs
  next h1 =>
  split at hs
  · cases hs
  next h2 =>
  split at hs
  · cases hs
  next h3 =>
  simp [Component.text, h1, h2, h3]

theorem ofComponents_names (names : List Text) :
    ofComponents (names.map .name) = ⟨[ '/' ].intercalate names⟩ := by
  have : (names.map Component.name).map (·.text) = names := by
    rw [List.map_map]
    exact List.map_id'' (fun _ => rfl) _
  cases names with
  | nil => rfl
  | cons n names => exact congrArg (fun l => (⟨[ '/' ].intercalate l⟩ : Path)) this

theorem canonical_names {names : List Text} (h : ∀ n ∈ names, Disk.IsName n) :
    Canonical (names.map .name) := by
  have hi : ∀ c ∈ names.map Component.name, Inner c := by
    intro c hc
    obtain ⟨n, hn, rfl⟩ := List.mem_map.1 hc
    exact inner_name (h n hn)
  exact ⟨fun c hc => .inr (.inr (hi c (List.mem_of_mem_head? hc))),
    fun c hc => hi c (List.mem_of_mem_tail hc)⟩

/-- Names with slashes between are the components of a relative path. -/
theorem components_names {names : List Text} (h : ∀ n ∈ names, Disk.IsName n) :
    ¬ (⟨[ '/' ].intercalate names⟩ : Path).isAbsolute ∧
      (⟨[ '/' ].intercalate names⟩ : Path).components = names.map .name := by
  have hcan := canonical_names h
  rw [← ofComponents_names, isAbsolute_ofComponents hcan]
  refine ⟨?_, components_ofComponents hcan⟩
  intro hc
  cases names <;> simp at hc

/-- The names of a path, one below the other. -/
def names (p : Path) : Place := p.components.filterMap (·.name?)

theorem names_intercalate {names : List Text} (h : ∀ n ∈ names, Disk.IsName n) :
    (⟨[ '/' ].intercalate names⟩ : Path).names = names := by
  rw [Path.names, (components_names h).2, List.filterMap_map]
  exact List.filterMap_some

theorem inner_eq_names (hup : .up ∉ p.components) : p.inner = p.names.map .name := by
  have hfront : p.names = p.inner.filterMap (·.name?) := by
    rw [names, components_eq]
    split
    · rfl
    split <;> rfl
  have hname : ∀ c ∈ p.inner, c.name?.map .name = some c := by
    intro c hc
    rcases (inner_of_mem hc).cases with rfl | ⟨n, rfl, -⟩
    · exact absurd (by rw [components_eq]; exact List.mem_append_right _ hc) hup
    · rfl
  rw [hfront, List.map_filterMap, List.filterMap_congr hname, List.filterMap_some]

theorem moving_steps_eq_names (hup : .up ∉ p.components) :
    Disk.moving p.steps = p.names.map .down := by
  rw [moving_steps, inner_eq_names hup, List.filterMap_map]
  exact congrFun List.filterMap_eq_map p.names

/-! ## Joining -/

theorem pieces_join (ht : p.text ≠ []) (hq : ¬ q.isAbsolute) :
    ∃ front, (p.join q).pieces = front ++ q.pieces ∧ front ≠ [] ∧
      (p.pieces = front ∨ p.pieces = front ++ [[]]) := by
  unfold join
  rw [if_neg hq]
  simp only [ht, false_or]
  split
  · next hl =>
    obtain ⟨t, ht'⟩ := List.getLast?_eq_some_iff.1 hl
    refine ⟨t.splitOn '/', ?_, List.splitOn_ne_nil _ _, .inr ?_⟩
    · simp only [pieces, ht', List.append_assoc, List.singleton_append,
        List.splitOn_append_cons_self]
    · simp only [pieces, ht', List.splitOn_append_cons_self, List.splitOn_nil]
  · exact ⟨p.pieces, by simp only [pieces, List.splitOn_append_cons_self],
      List.splitOn_ne_nil _ _, .inl rfl⟩

theorem isAbsolute_join (ht : p.text ≠ []) (hq : ¬ q.isAbsolute) :
    (p.join q).isAbsolute = p.isAbsolute := by
  obtain ⟨a, t, hp⟩ := List.exists_cons_of_ne_nil ht
  unfold join
  rw [if_neg hq]
  split <;> simp [isAbsolute, hp]

theorem steps_join (ht : p.text ≠ []) (hq : ¬ q.isAbsolute) :
    (p.join q).steps = p.steps ++ q.steps := by
  obtain ⟨front, h1, -, h2⟩ := pieces_join ht hq
  have hs : p.steps = front.filterMap Path.step? := by
    unfold steps
    rcases h2 with h2 | h2 <;> simp [h2, Path.step?]
  rw [hs, steps, h1, List.filterMap_append, steps]

theorem components_join (ht : p.text ≠ []) (hq : ¬ q.isAbsolute) :
    (p.join q).components = p.components ++ q.inner := by
  obtain ⟨front, h1, hne, h2⟩ := pieces_join ht hq
  obtain ⟨l, ls, rfl⟩ := List.exists_cons_of_ne_nil hne
  have hi : p.inner = (l :: ls).filterMap component? := by
    unfold inner
    rcases h2 with h2 | h2
    · rw [h2]
    · rw [h2, List.filterMap_append]
      simp [component?]
  have hh : p.pieces.head? = some l := by rcases h2 with h2 | h2 <;> simp [h2]
  rw [components_eq, components_eq, isAbsolute_join ht hq, hh, hi, inner, h1,
    List.filterMap_append, List.append_assoc]
  rfl

theorem start_join (ht : p.text ≠ []) (hq : ¬ q.isAbsolute) (base : Place) :
    (p.join q).start base = p.start base := by
  rw [start, start, isAbsolute_join ht hq]

theorem parent?_eq_some {parent : Path} (h : p.parent? = some parent) :
    parent = ofComponents p.components.dropLast := by
  unfold parent? at h
  split at h
  · cases h
  · cases h
  · exact (Option.some.inj h).symm

end Path

end Declutter
