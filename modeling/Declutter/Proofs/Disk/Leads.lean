import Declutter.Proofs.Disk.Entries

/-!
# Where steps lead

`Disk.Leads d p s n q`: the steps `s` lead from the place `p` to `q`, through `n` links, all of them
followed. `walk_ok_iff` says that this is what `walk` computes within its limit of links. Unlike
`walk`, the relation composes: steps lead on from where the steps before them lead (`Leads.append`,
`Leads.split`), and a disk with more on it leads the same way (`Leads.mono`).

Steps that stay where they are do not matter, as long as the end is a directory (`Leads.moving`,
`leads_of_moving`).
-/

namespace Declutter.Disk

/-- Steps lead from a place to another, through so many links. -/
inductive Leads (d : Disk) : Place → List Step → Nat → Place → Prop
  | done (p : Place) : Leads d p [] 0 p
  | here {p s n q} : d.entry? p = some .dir → Leads d p s n q → Leads d p (.here :: s) n q
  | up {p s n q} : d.entry? p = some .dir → Leads d p.dropLast s n q → Leads d p (.up :: s) n q
  | down {p name s n q e} : d.entry? p = some .dir → d.entry? (p ++ [name]) = some e →
      (∀ t, e ≠ .link t) → Leads d (p ++ [name]) s n q → Leads d p (.down name :: s) n q
  | link {p name s n q t} : d.entry? p = some .dir → d.entry? (p ++ [name]) = some (.link t) →
      Leads d (t.start p) (t.fullSteps ++ s) n q → Leads d p (.down name :: s) (n + 1) q

variable {d d' : Disk} {p q r : Place} {s s' : List Step} {m n : Nat}

theorem leads_of_walk {links : Nat} (h : d.walk true links p s = .ok q) :
    ∃ n ≤ links, d.Leads p s n q := by
  fun_induction walk d true links p s with
  | case1 => cases h; exact ⟨0, Nat.zero_le _, .done _⟩
  | case2 => cases h
  | case3 => cases h
  | case4 => cases h
  | case5 _ _ _ hp ih =>
    obtain ⟨n, hn, hl⟩ := ih h
    exact ⟨n, hn, .here hp hl⟩
  | case6 _ _ _ hp ih =>
    obtain ⟨n, hn, hl⟩ := ih h
    exact ⟨n, hn, .up hp hl⟩
  | case7 => cases h
  | case8 _ _ _ _ _ _ _ hc => simp at hc
  | case9 => cases h
  | case10 _ _ hp _ _ ht _ _ ih =>
    obtain ⟨n, hn, hl⟩ := ih h
    exact ⟨n + 1, by omega, .link hp ht hl⟩
  | case11 _ _ _ hp _ e hne he ih =>
    obtain ⟨n, hn, hl⟩ := ih h
    exact ⟨n, hn, .down hp he (fun t hc => hne t hc) hl⟩

theorem Leads.walk (h : d.Leads p s n q) {links : Nat} (hn : n ≤ links) :
    d.walk true links p s = .ok q := by
  induction h generalizing links with
  | done p => rw [Disk.walk]
  | here hp _ ih => rw [Disk.walk, hp]; exact ih hn
  | up hp _ ih => rw [Disk.walk, hp]; exact ih hn
  | @down p name s n q e hp he hne _ ih =>
    rw [Disk.walk, hp]
    simp only [he]
    cases e with
    | link t => exact absurd rfl (hne t)
    | _ => exact ih hn
  | link hp ht _ ih =>
    rw [Disk.walk, hp]
    simp only [ht, Bool.not_true, Bool.false_eq_true, and_false, if_false]
    obtain ⟨l, rfl⟩ : ∃ l, links = l + 1 := ⟨links - 1, by omega⟩
    exact ih (by omega)

/-- Where some steps lead, the walk goes on with the steps after them. -/
theorem Leads.walk_append (h : d.Leads p s n q) {follow : Bool} {links : Nat} (hn : n ≤ links)
    (hs : s' ≠ [] ∨ follow = true) :
    d.walk follow links p (s ++ s') = d.walk follow (links - n) q s' := by
  induction h generalizing links with
  | done p => rfl
  | here hp _ ih =>
    rw [List.cons_append, Disk.walk, hp]
    exact ih hn
  | up hp _ ih =>
    rw [List.cons_append, Disk.walk, hp]
    exact ih hn
  | @down p name s n q e hp he hne _ ih =>
    rw [List.cons_append, Disk.walk, hp]
    simp only [he]
    cases e with
    | link t => exact absurd rfl (hne t)
    | _ => exact ih hn
  | @link p name s n q t hp ht _ ih =>
    have hfollow : ¬ (s ++ s' = [] ∧ (!follow) = true) := by
      rintro ⟨hnil, hf⟩
      rcases hs with hs | hs
      · exact hs (List.append_eq_nil_iff.1 hnil).2
      · simp [hs] at hf
    obtain ⟨l, rfl⟩ : ∃ l, links = l + 1 := ⟨links - 1, by omega⟩
    rw [List.cons_append, Disk.walk, hp]
    simp only [ht, hfollow, if_false]
    rw [← List.append_assoc, ih (by omega), Nat.add_sub_add_right]

/-- **Walking is leading**, as far as the limit of links allows. -/
theorem walk_ok_iff {links : Nat} :
    d.walk true links p s = .ok q ↔ ∃ n ≤ links, d.Leads p s n q :=
  ⟨leads_of_walk, fun ⟨_, hn, h⟩ => h.walk hn⟩

namespace Leads

theorem append (h : d.Leads p s n q) (h' : d.Leads q s' m r) : d.Leads p (s ++ s') (n + m) r := by
  induction h with
  | done p => simpa using h'
  | here hp _ ih => exact .here hp (ih h')
  | up hp _ ih => exact .up hp (ih h')
  | down hp he hne _ ih => exact .down hp he hne (ih h')
  | @link p name s n q t hp ht _ ih =>
    have := ih h'
    rw [List.append_assoc] at this
    rw [Nat.add_right_comm]
    exact .link hp ht this

theorem split (h : d.Leads p (s ++ s') n r) :
    ∃ q a b, d.Leads p s a q ∧ d.Leads q s' b r ∧ a + b = n := by
  generalize hs : s ++ s' = s₀ at h
  induction h generalizing s with
  | done p =>
    obtain ⟨rfl, rfl⟩ := List.append_eq_nil_iff.1 hs
    exact ⟨p, 0, 0, .done p, .done p, rfl⟩
  | @here p s n q hp h ih =>
    rcases List.append_eq_cons_iff.1 hs with ⟨rfl, rfl⟩ | ⟨s₁, rfl, hs'⟩
    · exact ⟨p, 0, n, .done p, .here hp h, by omega⟩
    · obtain ⟨r, a, b, h₁, h₂, hab⟩ := ih hs'.symm
      exact ⟨r, a, b, .here hp h₁, h₂, hab⟩
  | @up p s n q hp h ih =>
    rcases List.append_eq_cons_iff.1 hs with ⟨rfl, rfl⟩ | ⟨s₁, rfl, hs'⟩
    · exact ⟨p, 0, n, .done p, .up hp h, by omega⟩
    · obtain ⟨r, a, b, h₁, h₂, hab⟩ := ih hs'.symm
      exact ⟨r, a, b, .up hp h₁, h₂, hab⟩
  | @down p name s n q e hp he hne h ih =>
    rcases List.append_eq_cons_iff.1 hs with ⟨rfl, rfl⟩ | ⟨s₁, rfl, hs'⟩
    · exact ⟨p, 0, n, .done p, .down hp he hne h, by omega⟩
    · obtain ⟨r, a, b, h₁, h₂, hab⟩ := ih hs'.symm
      exact ⟨r, a, b, .down hp he hne h₁, h₂, hab⟩
  | @link p name s n q t hp ht h ih =>
    rcases List.append_eq_cons_iff.1 hs with ⟨rfl, rfl⟩ | ⟨s₁, rfl, hs'⟩
    · exact ⟨p, 0, n + 1, .done p, .link hp ht h, by omega⟩
    · -- the target's steps belong to the first part
      obtain ⟨r, a, b, h₁, h₂, hab⟩ := ih (s := t.fullSteps ++ s₁) (by rw [hs']; simp)
      exact ⟨r, a + 1, b, .link hp ht h₁, h₂, by omega⟩

theorem unique (h : d.Leads p s n q) (h' : d.Leads p s m r) : q = r ∧ n = m := by
  induction h generalizing m with
  | done p => cases h'; exact ⟨rfl, rfl⟩
  | here _ _ ih => cases h' with | here _ h' => exact ih h'
  | up _ _ ih => cases h' with | up _ h' => exact ih h'
  | down _ he hne _ ih =>
    cases h' with
    | down _ _ _ h' => exact ih h'
    | link _ ht _ => rw [he] at ht; cases ht; exact absurd rfl (hne _)
  | link _ ht _ ih =>
    cases h' with
    | down _ he hne _ => rw [ht] at he; cases he; exact absurd rfl (hne _)
    | link _ ht' h' =>
      rw [ht] at ht'
      cases ht'
      obtain ⟨h1, h2⟩ := ih h'
      exact ⟨h1, by rw [h2]⟩

theorem eq (h : d.Leads p s n q) (h' : d.Leads p s m r) : q = r := (h.unique h').1

theorem mono (h : d.Leads p s n q) (hk : d.Keeps d') : d'.Leads p s n q := by
  induction h with
  | done p => exact .done p
  | here hp _ ih => exact .here (hk.dir _ hp) ih
  | up hp _ ih => exact .up (hk.dir _ hp) ih
  | @down p name s n q e hp he hne _ ih =>
    cases e with
    | link t => exact absurd rfl (hne t)
    | dir => exact .down (hk.dir _ hp) (hk.dir _ he) (by simp) ih
    | file b =>
      obtain ⟨b', hb⟩ := hk.file _ b he
      exact .down (hk.dir _ hp) hb (by simp) ih
  | link hp ht _ ih => exact .link (hk.dir _ hp) (hk.link _ _ ht) ih

/-- Steps start in a directory. -/
theorem dir (h : d.Leads p s n q) (hs : s ≠ []) : d.entry? p = some .dir := by
  cases h with
  | done => exact absurd rfl hs
  | here hp _ => exact hp
  | up hp _ => exact hp
  | down hp _ _ _ => exact hp
  | link hp _ _ => exact hp

theorem here_iff : d.Leads p [.here] n q ↔ d.entry? p = some .dir ∧ n = 0 ∧ q = p := by
  constructor
  · intro h
    cases h with | here hp h => cases h; exact ⟨hp, rfl, rfl⟩
  · rintro ⟨hp, rfl, rfl⟩
    exact .here hp (.done _)

/-- The name of a directory leads into it. -/
theorem down_dir (hp : d.entry? p = some .dir) {name : Text}
    (h : d.entry? (p ++ [name]) = some .dir) : d.Leads p [.down name] 0 (p ++ [name]) :=
  .down hp h (by simp) (.done _)

end Leads

/-- Names lead straight down to what is there, unless it is a link. -/
theorem leads_names {names : Place} {e : Entry} (hd : d.WellFormed)
    (h : d.entry? (r ++ names) = some e) (hlink : ∀ t, e ≠ .link t) :
    d.Leads r (names.map .down) 0 (r ++ names) := by
  induction names using List.reverseRecOn generalizing e with
  | nil =>
    rw [List.append_nil]
    exact .done r
  | append_singleton names n ih =>
    rw [← List.append_assoc] at h ⊢
    have hdir := hd.dir_of_append (by simp) h
    rw [List.map_append]
    exact (ih hdir (by simp)).append (.down hdir h hlink (.done _))

theorem leads_down {names : Place} (hd : d.WellFormed) (h : d.entry? (r ++ names) = some .dir) :
    d.Leads r (names.map .down) 0 (r ++ names) := leads_names hd h (by simp)

/-! ## Steps that stay -/

/-- The steps that go somewhere else. -/
def moving (s : List Step) : List Step := s.filter (· ≠ .here)

theorem moving_append (s s' : List Step) : moving (s ++ s') = moving s ++ moving s' :=
  List.filter_append ..

theorem moving_cons_here (s : List Step) : moving (.here :: s) = moving s := by simp [moving]

theorem moving_cons_of_ne {a : Step} (ha : a ≠ .here) (s : List Step) :
    moving (a :: s) = a :: moving s := by simp [moving, ha]

theorem Leads.moving (h : d.Leads p s n q) : d.Leads p (Disk.moving s) n q := by
  induction s generalizing p n with
  | nil => exact h
  | cons a s ih =>
    obtain ⟨r, m, b, h₁, h₂, rfl⟩ := Leads.split (s := [a]) h
    by_cases ha : a = .here
    · subst ha
      obtain ⟨-, rfl, rfl⟩ := here_iff.1 h₁
      rw [moving_cons_here, Nat.zero_add]
      exact ih h₂
    · rw [moving_cons_of_ne ha]
      exact h₁.append (ih h₂)

theorem leads_of_moving (h : d.Leads p (moving s) n q) (hq : d.entry? q = some .dir) :
    d.Leads p s n q := by
  induction s generalizing p n with
  | nil => exact h
  | cons a s ih =>
    by_cases ha : a = .here
    · subst ha
      rw [moving_cons_here] at h
      refine .here ?_ (ih h)
      by_cases hs : moving s = []
      · rw [hs] at h
        cases h
        exact hq
      · exact h.dir hs
    · rw [moving_cons_of_ne ha] at h
      obtain ⟨r, m, b, h₁, h₂, rfl⟩ := Leads.split (s := [a]) h
      exact h₁.append (ih h₂)

/-! ## Paths -/

variable {a b : Path}

theorem lookup_true_ok_iff : d.lookup true a = .ok q ↔ a.text ≠ [] ∧ a.isValid ∧
    ∃ n ≤ linkLimit, d.Leads (a.start d.workDir) a.fullSteps n q := by
  unfold lookup
  by_cases ht : a.text = []
  · simp [ht]
  · by_cases hv : a.isValid
    · simp [ht, hv, walk_ok_iff]
    · simp [ht, hv]

theorem resolve?_eq_some_iff : d.resolve? a = some q ↔ a.text ≠ [] ∧ a.isValid ∧
    ∃ n ≤ linkLimit, d.Leads (a.start d.workDir) a.fullSteps n q := by
  rw [← lookup_true_ok_iff]
  unfold resolve?
  cases d.lookup true a <;> simp [Except.toOption]

theorem Keeps.resolve? (hk : d.Keeps d') (h : d.resolve? a = some q) : d'.resolve? a = some q := by
  obtain ⟨ht, hv, n, hn, hl⟩ := resolve?_eq_some_iff.1 h
  rw [← hk.workDir] at hl
  exact resolve?_eq_some_iff.2 ⟨ht, hv, n, hn, hl.mono hk⟩

theorem find?_eq_some_iff {e : Entry} :
    d.find? a = some e ↔ ∃ q, d.resolve? a = some q ∧ d.entry? q = some e := by
  simp [find?, Option.bind_eq_some_iff]

theorem isDir_iff : d.isDir a ↔ ∃ q, d.resolve? a = some q ∧ d.entry? q = some .dir := by
  rw [← find?_eq_some_iff]
  simp [isDir]

/-- Where a last step leads from a directory, if it is not followed as a link. -/
def Ends (d : Disk) (r : Place) : Step → Place → Prop
  | .here, q => q = r
  | .up, q => q = r.dropLast
  | .down name, q => q = r ++ [name] ∧ (d.entry? q).isSome

/-- Where the link at the end is not followed, the last step counts by itself. -/
theorem leads_of_walk_false {links : Nat} {last : Step}
    (h : d.walk false links p (s ++ [last]) = .ok q) :
    ∃ n ≤ links, ∃ r, d.Leads p s n r ∧ d.entry? r = some .dir ∧ d.Ends r last q := by
  generalize hs : s ++ [last] = s₀ at h
  fun_induction Disk.walk d false links p s₀ generalizing s with
  | case1 => simp at hs
  | case2 => cases h
  | case3 => cases h
  | case4 => cases h
  | case5 links p s₂ hp ih =>
    rcases List.append_eq_cons_iff.1 hs with ⟨rfl, hs'⟩ | ⟨s₁, rfl, hs'⟩
    · obtain ⟨rfl, rfl⟩ : last = .here ∧ s₂ = [] := by simpa [eq_comm] using hs'
      rw [Disk.walk] at h
      cases h
      exact ⟨0, Nat.zero_le _, _, .done _, hp, rfl⟩
    · obtain ⟨n, hn, r, hl, hr⟩ := ih hs'.symm h
      exact ⟨n, hn, r, .here hp hl, hr⟩
  | case6 links p s₂ hp ih =>
    rcases List.append_eq_cons_iff.1 hs with ⟨rfl, hs'⟩ | ⟨s₁, rfl, hs'⟩
    · obtain ⟨rfl, rfl⟩ : last = .up ∧ s₂ = [] := by simpa [eq_comm] using hs'
      rw [Disk.walk] at h
      cases h
      exact ⟨0, Nat.zero_le _, _, .done _, hp, rfl⟩
    · obtain ⟨n, hn, r, hl, hr⟩ := ih hs'.symm h
      exact ⟨n, hn, r, .up hp hl, hr⟩
  | case7 => cases h
  | case8 links p s₂ hp name t ht hc =>
    obtain ⟨rfl, -⟩ := hc
    cases h
    obtain ⟨rfl, rfl⟩ : s = [] ∧ last = .down name := by
      simpa [List.append_eq_singleton_iff] using hs
    exact ⟨0, Nat.zero_le _, p, .done p, hp, rfl, by rw [ht]; rfl⟩
  | case9 => cases h
  | case10 p s₂ hp name t ht hc links ih =>
    rcases List.append_eq_cons_iff.1 hs with ⟨rfl, hs'⟩ | ⟨s₁, rfl, hs'⟩
    · obtain ⟨rfl, rfl⟩ : last = .down name ∧ s₂ = [] := by simpa [eq_comm] using hs'
      exact absurd ⟨rfl, rfl⟩ hc
    · obtain ⟨n, hn, r, hl, hr⟩ := ih (s := t.fullSteps ++ s₁) (by rw [hs']; simp) h
      exact ⟨n + 1, by omega, r, .link hp ht hl, hr⟩
  | case11 links p s₂ hp name e hne he ih =>
    rcases List.append_eq_cons_iff.1 hs with ⟨rfl, hs'⟩ | ⟨s₁, rfl, hs'⟩
    · obtain ⟨rfl, rfl⟩ : last = .down name ∧ s₂ = [] := by simpa [eq_comm] using hs'
      rw [Disk.walk] at h
      cases h
      exact ⟨0, Nat.zero_le _, p, .done p, hp, rfl, by rw [he]; rfl⟩
    · obtain ⟨n, hn, r, hl, hr⟩ := ih hs'.symm h
      exact ⟨n, hn, r, .down hp he (fun t hc => hne t hc) hl, hr⟩

/-- Where a path leads, the steps before the slash at its end lead. -/
theorem leads_steps (h : d.resolve? a = some q) :
    ∃ n ≤ linkLimit, d.Leads (a.start d.workDir) a.steps n q := by
  obtain ⟨-, -, n, hn, hl⟩ := resolve?_eq_some_iff.1 h
  unfold Path.fullSteps at hl
  split at hl
  · obtain ⟨r, m, b, h₁, h₂, rfl⟩ := hl.split
    obtain ⟨-, rfl, rfl⟩ := Leads.here_iff.1 h₂
    exact ⟨m, hn, h₁⟩
  · exact ⟨n, hn, by simpa using hl⟩

/-- A path leads to a directory where its steps do. -/
theorem resolve?_of_leads (ht : a.text ≠ []) (hv : a.isValid) (hn : n ≤ linkLimit)
    (h : d.Leads (a.start d.workDir) a.steps n q) (hq : d.entry? q = some .dir) :
    d.resolve? a = some q := by
  refine resolve?_eq_some_iff.2 ⟨ht, hv, n, hn, ?_⟩
  unfold Path.fullSteps
  split
  · exact h.append (.here hq (.done _))
  · simpa using h

theorem locate_ok_iff {start parent : Place} {last : Option Step} :
    d.locate start a = .ok (parent, last) ↔ a.text ≠ [] ∧ a.isValid ∧
      (∃ n ≤ linkLimit, d.Leads (a.start start) a.steps.dropLast n parent) ∧
      d.entry? parent = some .dir ∧ last = a.steps.getLast? := by
  unfold locate
  by_cases ht : a.text = []
  · simp [ht, bind, Except.bind, throw, throwThe, MonadExceptOf.throw]
  by_cases hv : a.isValid
  · rw [← walk_ok_iff]
    simp only [ht, hv, if_false, bind, Except.bind, pure, Except.pure, Bool.not_true,
      Bool.false_eq_true, ne_eq, not_false_eq_true, true_and]
    cases hw : d.walk true linkLimit (a.start start) a.steps.dropLast with
    | error e => simp
    | ok r =>
      simp only [Except.ok.injEq]
      cases he : d.entry? r with
      | none => simp [throw, throwThe, MonadExceptOf.throw]; rintro rfl; simp [he]
      | some e =>
        cases e with
        | dir =>
          simp only [Except.ok.injEq, Prod.mk.injEq]
          exact ⟨fun ⟨h1, h2⟩ => ⟨h1, h1 ▸ he, h2.symm⟩, fun ⟨h1, _, h2⟩ => ⟨h1, h2.symm⟩⟩
        | _ => simp [throw, throwThe, MonadExceptOf.throw]; rintro rfl; simp [he]
  · simp [ht, hv, bind, Except.bind, throw, throwThe, MonadExceptOf.throw]

end Declutter.Disk
