import Declutter.Method.Brace

/-!
# Where braces balance

`Brace.Closes brace level xs n`: the closing brace at position `n` is the first at which the braces
read so far, from `level` on, balance. `close?_eq_some_iff` says that this is what `close?` finds.

The search goes on behind a text in which it finds nothing, from the level that is reached there
(`close?_append_of_none`). Braces that stand deeper close later (`exists_close?_lt`), so two pairs of
braces are nested or apart (`close?_nested`).
-/

namespace Declutter.Brace

variable {α : Type} {brace : α → Option Brace} {level level' : Int} {x : α} {xs ys : List α}
  {n n' : Nat}

/-- How many more braces are opened than closed. -/
def balance (brace : α → Option Brace) (xs : List α) : Int :=
  xs.countP (brace · == some .opening) - xs.countP (brace · == some .closing)

/-- A closing brace stands at position `n`, and the braces up to it balance. -/
def Returns (brace : α → Option Brace) (level : Int) (xs : List α) (n : Nat) : Prop :=
  xs[n]?.bind brace = some .closing ∧ level + balance brace (xs.take (n + 1)) = 0

/-- Position `n` is the first with a closing brace up to which the braces balance. -/
def Closes (brace : α → Option Brace) (level : Int) (xs : List α) (n : Nat) : Prop :=
  Returns brace level xs n ∧ ∀ k < n, ¬ Returns brace level xs k

/-- What one brace adds to the balance. -/
def weight : Option Brace → Int
  | some .opening => 1
  | some .closing => -1
  | none => 0

theorem balance_cons : balance brace (x :: xs) = weight (brace x) + balance brace xs := by
  unfold balance
  rw [List.countP_cons, List.countP_cons]
  rcases hx : brace x with _ | _ | _ <;> simp [weight] <;> omega

theorem balance_append : balance brace (xs ++ ys) = balance brace xs + balance brace ys := by
  unfold balance
  rw [List.countP_append, List.countP_append]
  omega

theorem close?_cons : close? brace level (x :: xs) =
    if brace x = some .closing ∧ level - 1 = 0 then some 0
    else (close? brace (level + weight (brace x)) xs).map (· + 1) := by
  rw [close?]
  rcases hx : brace x with _ | _ | _ <;> simp [weight, Int.sub_eq_add_neg]

theorem returns_cons_zero :
    Returns brace level (x :: xs) 0 ↔ brace x = some .closing ∧ level - 1 = 0 := by
  unfold Returns
  have hbalance : balance brace ((x :: xs).take (0 + 1)) = weight (brace x) := by
    rw [List.take_succ_cons, balance_cons]
    simp [balance]
  rw [hbalance]
  constructor
  · rintro ⟨hx, hlevel⟩
    have hx : brace x = some .closing := hx
    rw [hx] at hlevel
    exact ⟨hx, hlevel⟩
  · rintro ⟨hx, hlevel⟩
    rw [hx]
    exact ⟨hx, hlevel⟩

theorem returns_cons_succ :
    Returns brace level (x :: xs) (n + 1) ↔ Returns brace (level + weight (brace x)) xs n := by
  unfold Returns
  rw [List.getElem?_cons_succ, List.take_succ_cons, balance_cons, Int.add_assoc]

theorem closes_cons_succ : Closes brace level (x :: xs) (n + 1) ↔
    ¬ Returns brace level (x :: xs) 0 ∧ Closes brace (level + weight (brace x)) xs n := by
  unfold Closes
  rw [returns_cons_succ]
  constructor
  · rintro ⟨h, hfirst⟩
    refine ⟨hfirst 0 (Nat.succ_pos n), h, fun k hk => ?_⟩
    exact fun hr => hfirst (k + 1) (by omega) (returns_cons_succ.2 hr)
  · rintro ⟨hzero, h, hfirst⟩
    refine ⟨h, fun k hk => ?_⟩
    cases k with
    | zero => exact hzero
    | succ k => exact fun hr => hfirst k (by omega) (returns_cons_succ.1 hr)

/-- **The matching brace** is the first closing brace at which the braces balance. -/
theorem close?_eq_some_iff : close? brace level xs = some n ↔ Closes brace level xs n := by
  induction xs generalizing level n with
  | nil => simp [close?, Closes, Returns]
  | cons x xs ih =>
    rw [close?_cons]
    by_cases hzero : brace x = some .closing ∧ level - 1 = 0
    · rw [if_pos hzero]
      cases n with
      | zero => simp [Closes, returns_cons_zero.2 hzero]
      | succ n => simp [closes_cons_succ, returns_cons_zero.2 hzero]
    · rw [if_neg hzero]
      cases n with
      | zero => simp [Closes, returns_cons_zero, hzero]
      | succ n => simp [closes_cons_succ, returns_cons_zero, hzero, ih]

/-! ## Texts in parts -/

theorem close?_append_of_none (h : close? brace level xs = none) (ys : List α) :
    close? brace level (xs ++ ys) =
      (close? brace (level + balance brace xs) ys).map (· + xs.length) := by
  induction xs generalizing level with
  | nil => simp [balance]
  | cons x xs ih =>
    rw [close?_cons] at h
    split at h
    · cases h
    next hzero =>
    rw [Option.map_eq_none_iff] at h
    rw [List.cons_append, close?_cons, if_neg hzero, ih h, balance_cons, Int.add_assoc,
      Option.map_map]
    rfl

theorem close?_append_of_some (h : close? brace level xs = some n) (ys : List α) :
    close? brace level (xs ++ ys) = some n ∧ n < xs.length := by
  induction xs generalizing level n with
  | nil => cases h
  | cons x xs ih =>
    rw [close?_cons] at h
    rw [List.cons_append, close?_cons]
    split at h
    · next hzero =>
      cases h
      simp [hzero]
    · next hzero =>
      obtain ⟨k, hk, rfl⟩ := Option.map_eq_some_iff.1 h
      obtain ⟨hmore, hlt⟩ := ih hk
      rw [if_neg hzero, hmore]
      exact ⟨rfl, Nat.succ_lt_succ hlt⟩

/-- Nothing closes in the part of a text before the close. -/
theorem close?_eq_none_of_le (h : close? brace level (xs ++ ys) = some n) (hle : xs.length ≤ n) :
    close? brace level xs = none := by
  cases hxs : close? brace level xs with
  | none => rfl
  | some k =>
    obtain ⟨hk, hlt⟩ := close?_append_of_some hxs ys
    rw [h] at hk
    cases hk
    omega

theorem close?_of_forall (level : Int) (h : ∀ x ∈ xs, brace x = none) :
    close? brace level xs = none ∧ balance brace xs = 0 := by
  induction xs with
  | nil => exact ⟨rfl, rfl⟩
  | cons x xs ih =>
    obtain ⟨hx, hxs⟩ := List.forall_mem_cons.1 h
    obtain ⟨hnone, hzero⟩ := ih hxs
    rw [close?_cons, balance_cons, hx]
    simp [weight, hnone, hzero]

theorem level_pos_step (hlevel : 1 ≤ level)
    (hopen : ¬ (brace x = some .closing ∧ level - 1 = 0)) : 1 ≤ level + weight (brace x) := by
  rcases hx : brace x with _ | _ | _
  · simpa [weight] using hlevel
  · show 1 ≤ level + 1
    omega
  · have hne : level - 1 ≠ 0 := fun hzero => hopen ⟨hx, hzero⟩
    show 1 ≤ level + -1
    omega

/-- Within an open brace, the level stays above zero until that is closed. -/
theorem level_pos (hlevel : 1 ≤ level) (h : close? brace level xs = none) :
    1 ≤ level + balance brace xs := by
  induction xs generalizing level with
  | nil => simpa [balance] using hlevel
  | cons x xs ih =>
    rw [close?_cons] at h
    split at h
    · cases h
    next hzero =>
    rw [Option.map_eq_none_iff] at h
    have := ih (level_pos_step hlevel hzero) h
    rw [balance_cons]
    omega

/-- From a lower level, there is a close as well, and it comes earlier. -/
theorem exists_close?_lt (hlevel : 1 ≤ level) (hlt : level < level')
    (h : close? brace level' xs = some n') : ∃ n, close? brace level xs = some n ∧ n < n' := by
  induction xs generalizing level level' n' with
  | nil => cases h
  | cons x xs ih =>
    rw [close?_cons] at h
    split at h
    · next hclosed => omega
    obtain ⟨k', hk', rfl⟩ := Option.map_eq_some_iff.1 h
    rw [close?_cons]
    split
    · exact ⟨0, rfl, Nat.succ_pos k'⟩
    · next hopen =>
      obtain ⟨k, hk, hkk'⟩ := ih (level_pos_step hlevel hopen) (by omega) hk'
      exact ⟨k + 1, by rw [hk]; rfl, Nat.succ_lt_succ hkk'⟩

/-- From a lower level, the close comes no later. -/
theorem close?_le (hlevel : 1 ≤ level) (hle : level ≤ level')
    (h : close? brace level xs = some n) (h' : close? brace level' xs = some n') : n ≤ n' := by
  rcases Int.lt_or_eq_of_le hle with hlt | rfl
  · obtain ⟨k, hk, hkn⟩ := exists_close?_lt hlevel hlt h'
    rw [h] at hk
    cases hk
    exact Nat.le_of_lt hkn
  · rw [h] at h'
    cases h'
    exact Nat.le_refl n

theorem close?_opening (hx : brace x = some .opening) (level : Int) (xs : List α) :
    close? brace level (x :: xs) = (close? brace (level + 1) xs).map (· + 1) := by
  rw [close?, hx]

/-- **Pairs of braces are nested or apart**: what is opened between an opening brace and its close
is closed there, too. -/
theorem close?_nested {y : α} (hx : brace x = some .opening) (hy : brace y = some .opening)
    (h : close? brace 0 (x :: (xs ++ y :: ys)) = some n) :
    n ≤ xs.length ∨
      ∃ i j, n = xs.length + 1 + i ∧ close? brace 0 (y :: ys) = some j ∧ 0 < j ∧ j < i := by
  rw [close?_opening hx] at h
  obtain ⟨k, hk, rfl⟩ := Option.map_eq_some_iff.1 h
  by_cases hle : xs.length ≤ k
  · -- the second brace stands at a level above zero, so the level it starts from is reached first
    have hnone := close?_eq_none_of_le hk hle
    have hlevel := level_pos (Int.le_refl 1) hnone
    rw [close?_append_of_none hnone, close?_opening hy, Option.map_map] at hk
    obtain ⟨i, hi, rfl⟩ := Option.map_eq_some_iff.1 hk
    obtain ⟨j, hj, hji⟩ := exists_close?_lt (Int.le_refl 1) (by omega) hi
    refine .inr ⟨i + 1, j + 1, ?_, ?_, Nat.succ_pos j, Nat.succ_lt_succ hji⟩
    · simp only [Function.comp_apply]
      omega
    · rw [close?_opening hy, Int.zero_add, hj]
      rfl
  · exact .inl (by omega)

end Declutter.Brace
