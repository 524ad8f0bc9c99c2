import Declutter.Disk.Change

/-!
# Running actions on a disk

What each action of `DiskM` does to a disk, by its parts. `DiskM.Preserves I x`: the action `x`
keeps the property `I` of disks, whether it fails or not.
-/

namespace Declutter.DiskM

variable {ε δ α β : Type}

section
variable (d : Disk)

@[simp] theorem runOn_pure (a : α) : runOn d (pure a : DiskM ε α) = (.ok a, d) := rfl

theorem runOn_bind (x : DiskM ε α) (f : α → DiskM ε β) : runOn d (x >>= f) =
    match runOn d x with
    | (.ok a, d') => runOn d' (f a)
    | (.error e, d') => (.error e, d') := by
  show (match runOn d x with
    | (a, d') => (ExceptT.bindCont f a).run d') = _
  rcases runOn d x with ⟨_ | _, _⟩ <;> rfl

@[simp] theorem runOn_throw (e : ε) : runOn d (throw e : DiskM ε α) = (.error e, d) := rfl

@[simp] theorem runOn_get_bind (f : Disk → DiskM ε α) : runOn d (get >>= f) = runOn d (f d) := rfl

@[simp] theorem runOn_set (d' : Disk) : runOn d (set d' : DiskM ε PUnit) = (.ok ⟨⟩, d') := rfl

@[simp] theorem runOn_ofExcept (x : Except ε α) :
    runOn d (MonadExcept.ofExcept x : DiskM ε α) = (x, d) := by cases x <;> rfl

theorem runOn_change (f : Disk → Except ε Disk) : runOn d (change f) =
    match f d with
    | .ok d' => (.ok (), d')
    | .error e => (.error e, d) := by
  unfold change
  rw [runOn_get_bind, runOn_bind, runOn_ofExcept]
  cases f d <;> rfl

theorem runOn_rename (f : ε → δ) (x : DiskM ε α) : runOn d (x.rename f) =
    match runOn d x with
    | (.ok a, d') => (.ok a, d')
    | (.error e, d') => (.error (f e), d') := by
  unfold rename runOn
  simp only [ExceptT.run_mk, StateT.run_map]
  rcases StateT.run (ExceptT.run x) d with ⟨_ | _, _⟩ <;> rfl

theorem runOn_attempt (x : DiskM ε α) :
    runOn d (x.attempt : DiskM δ (Except ε α)) = (.ok (runOn d x).1, (runOn d x).2) := rfl

end

/-! ## Actions that do not fail -/

variable {d d' : Disk}

theorem runOn_bind_ok {x : DiskM ε α} {f : α → DiskM ε β} {b : β} :
    runOn d (x >>= f) = (.ok b, d') ↔
      ∃ a d₁, runOn d x = (.ok a, d₁) ∧ runOn d₁ (f a) = (.ok b, d') := by
  rw [runOn_bind]
  rcases runOn d x with ⟨e | a, d₁⟩
  · simp
  · constructor
    · intro h
      exact ⟨a, d₁, rfl, h⟩
    · rintro ⟨_, _, ⟨⟩, h⟩
      exact h

theorem runOn_rename_ok {f : ε → δ} {x : DiskM ε α} {a : α} :
    runOn d (x.rename f) = (.ok a, d') ↔ runOn d x = (.ok a, d') := by
  rw [runOn_rename]
  rcases runOn d x with ⟨e | a, d₁⟩ <;> simp

theorem runOn_change_ok {f : Disk → Except ε Disk} {u : Unit} :
    runOn d (change f) = (.ok u, d') ↔ f d = .ok d' := by
  rw [runOn_change]
  cases f d <;> simp

theorem runOn_mapM_cons_ok {a : α} {l : List α} {f : α → DiskM ε β} {bs : List β} :
    runOn d ((a :: l).mapM f) = (.ok bs, d') ↔ ∃ b bs' d₁, bs = b :: bs' ∧
      runOn d (f a) = (.ok b, d₁) ∧ runOn d₁ (l.mapM f) = (.ok bs', d') := by
  rw [List.mapM_cons, runOn_bind_ok]
  constructor
  · rintro ⟨b, d₁, hb, h⟩
    obtain ⟨bs', d₂, hbs, h⟩ := runOn_bind_ok.1 h
    cases h
    exact ⟨b, bs', d₁, rfl, hb, hbs⟩
  · rintro ⟨b, bs', d₁, rfl, hb, hbs⟩
    exact ⟨b, d₁, hb, runOn_bind_ok.2 ⟨bs', d', hbs, rfl⟩⟩

/-- Attempts that all succeed are the actions themselves, one after the other. -/
theorem runOn_mapM_of_attempt {l : List α} {f : α → DiskM ε β} {rs : List (Except ε β)}
    {bs : List β} {d₁ : Disk}
    (h : runOn d (l.mapM fun a => ((f a).attempt : DiskM ε _)) = (.ok rs, d₁))
    (hrs : runOn d₁ (rs.mapM (MonadExcept.ofExcept : _ → DiskM ε β)) = (.ok bs, d')) :
    runOn d (l.mapM f) = (.ok bs, d') := by
  induction l generalizing d rs bs with
  | nil =>
    cases h
    exact hrs
  | cons a l ih =>
    obtain ⟨x, rs', d₂, rfl, ha, hl⟩ := runOn_mapM_cons_ok.1 h
    obtain ⟨b, bs', d₃, rfl, hb, hbs⟩ := runOn_mapM_cons_ok.1 hrs
    rw [runOn_ofExcept] at hb
    cases hb
    rw [runOn_attempt] at ha
    obtain ⟨hok, hdisk⟩ : (runOn d (f a)).1 = .ok b ∧ (runOn d (f a)).2 = d₂ := by simpa using ha
    exact runOn_mapM_cons_ok.2 ⟨b, bs', d₂, rfl, Prod.ext hok hdisk, ih hl hbs⟩

/-- What a list of actions gives, one of them gives. -/
theorem mem_of_runOn_mapM {l : List α} {f : α → DiskM ε β} {bs : List β} {b : β}
    (h : runOn d (l.mapM f) = (.ok bs, d')) (hb : b ∈ bs) :
    ∃ a ∈ l, ∃ d₁, (runOn d₁ (f a)).1 = .ok b := by
  induction l generalizing d bs with
  | nil =>
    cases h
    cases hb
  | cons a l ih =>
    obtain ⟨b', bs, d₁, rfl, hhead, htail⟩ := runOn_mapM_cons_ok.1 h
    rcases List.mem_cons.1 hb with rfl | hb
    · exact ⟨a, List.mem_cons_self .., d, by rw [hhead]⟩
    · obtain ⟨a', ha', hrun⟩ := ih htail hb
      exact ⟨a', List.mem_cons_of_mem _ ha', hrun⟩

/-! ## Actions that fail -/

theorem runOn_bind_error {x : DiskM ε α} {f : α → DiskM ε β} {e : ε} :
    runOn d (x >>= f) = (.error e, d') ↔ runOn d x = (.error e, d') ∨
      ∃ a d₁, runOn d x = (.ok a, d₁) ∧ runOn d₁ (f a) = (.error e, d') := by
  rw [runOn_bind]
  rcases runOn d x with ⟨e' | a, d₁⟩
  · simp
  · constructor
    · intro h
      exact .inr ⟨a, d₁, rfl, h⟩
    · rintro (h | ⟨_, _, ⟨⟩, h⟩)
      · cases h
      · exact h

/-- Where a list of actions fails, one of them fails. -/
theorem runOn_mapM_error {l : List α} {f : α → DiskM ε β} {e : ε}
    (h : runOn d (l.mapM f) = (.error e, d')) : ∃ a ∈ l, ∃ d₁, (runOn d₁ (f a)).1 = .error e := by
  induction l generalizing d with
  | nil => cases h
  | cons a l ih =>
    rw [List.mapM_cons] at h
    rcases runOn_bind_error.1 h with h | ⟨b, d₁, -, h⟩
    · exact ⟨a, List.mem_cons_self .., d, by rw [h]⟩
    · rcases runOn_bind_error.1 h with h | ⟨bs, d₂, -, h⟩
      · obtain ⟨a', ha', hfail⟩ := ih h
        exact ⟨a', List.mem_cons_of_mem _ ha', hfail⟩
      · cases h

/-! ## Properties that an action keeps -/

/-- The action keeps a property of disks, whether it fails or not. -/
def Preserves (I : Disk → Prop) (x : DiskM ε α) : Prop := ∀ d, I d → I (runOn d x).2

namespace Preserves

variable {I : Disk → Prop} {x : DiskM ε α}

theorem of_runOn (hx : Preserves I x) (h : I d) {r : Except ε α} (hrun : runOn d x = (r, d')) :
    I d' := by
  have := hx d h
  rwa [hrun] at this

theorem pure (a : α) : Preserves I (pure a : DiskM ε α) := fun _ h => h

theorem ofExcept (r : Except ε α) : Preserves I (MonadExcept.ofExcept r : DiskM ε α) :=
  fun d h => by rw [runOn_ofExcept]; exact h

theorem bind {f : α → DiskM ε β} (hx : Preserves I x) (hf : ∀ a, Preserves I (f a)) :
    Preserves I (x >>= f) := by
  intro d h
  have := hx d h
  rw [runOn_bind]
  rcases hr : runOn d x with ⟨_ | a, d'⟩
  · rw [hr] at this; exact this
  · rw [hr] at this; exact hf a d' this

theorem change {f : Disk → Except ε Disk} (hf : ∀ d d', I d → f d = .ok d' → I d') :
    Preserves I (DiskM.change f) := by
  intro d h
  rw [runOn_change]
  cases hr : f d with
  | ok d' => exact hf d d' h hr
  | error e => exact h

theorem rename (hx : Preserves I x) (f : ε → δ) : Preserves I (x.rename f) := by
  intro d h
  have := hx d h
  rw [runOn_rename]
  rcases hr : runOn d x with ⟨_ | a, d'⟩ <;> (rw [hr] at this; exact this)

theorem attempt (hx : Preserves I x) : Preserves I (x.attempt : DiskM δ (Except ε α)) := hx

theorem mapM {l : List α} {f : α → DiskM ε β} (h : ∀ a ∈ l, Preserves I (f a)) :
    Preserves I (l.mapM f) := by
  induction l with
  | nil => exact pure _
  | cons a l ih =>
    rw [List.mapM_cons]
    exact (h a (List.mem_cons_self ..)).bind fun _ =>
      (ih fun b hb => h b (List.mem_cons_of_mem _ hb)).bind fun _ => pure _

end Preserves

end Declutter.DiskM
