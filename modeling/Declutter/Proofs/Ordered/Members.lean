import Mathlib.Data.List.Sort
import Declutter.Ordered

/-!
# The members of lists

`Ordered.ofList` has the members of the list it is made from (`mem_ofList`), each once
(`nodup_ofList`), and if these are distinct it has them in another order (`ofList_perm`). Lists with
the same members make the same set (`ofList_eq_of_mem_iff`). The one member that passes a test is the
one that is found (`find?_eq_some_of_unique`, `findSome?_eq_of_unique`).
-/

namespace Declutter

theorem find?_eq_some_of_unique {α : Type} {p : α → Bool} {a : α} {l : List α} (ha : a ∈ l)
    (hp : p a) (hunique : ∀ b ∈ l, p b → b = a) : l.find? p = some a := by
  cases hfind : l.find? p with
  | none => exact absurd hp (List.find?_eq_none.1 hfind a ha)
  | some b => rw [hunique b (List.mem_of_find?_eq_some hfind) (List.find?_some hfind)]

theorem findSome?_eq_of_unique {α β : Type} [BEq α] [LawfulBEq α] {f : α → Option β} {a : α}
    {l : List α} (hunique : ∀ b ∈ l, (f b).isSome → b = a) :
    l.findSome? f = if l.contains a then f a else none := by
  induction l with
  | nil => rfl
  | cons b l ih =>
    obtain ⟨hb, hl⟩ := List.forall_mem_cons.1 hunique
    rw [List.findSome?_cons, ih hl]
    by_cases hba : b = a
    · subst hba
      cases f b <;> simp
    · have hnone : f b = none := by
        rw [← Option.not_isSome_iff_eq_none]
        exact fun hsome => hba (hb hsome)
      simp [hnone, Ne.symm hba]

namespace Ordered

variable {α : Type} [LT α] [DecidableLT α]

theorem length_insert_le (a : α) (l : List α) : (insert a l).length ≤ l.length + 1 := by
  induction l with
  | nil => exact Nat.le_refl _
  | cons c l ih =>
    rw [insert]
    split
    · exact Nat.le_refl _
    split
    · exact Nat.succ_le_succ ih
    · exact Nat.le_succ _

variable [Std.Trichotomous (α := α) (· < ·)] {a b : α} {l : List α}

theorem mem_insert : b ∈ insert a l ↔ b = a ∨ b ∈ l := by
  induction l with
  | nil => simp [insert]
  | cons c l ih =>
    rw [insert]
    split
    · rw [List.mem_cons]
    split
    · rw [List.mem_cons, ih, List.mem_cons, or_left_comm]
    · next h1 h2 =>
      obtain rfl : a = c := Std.Trichotomous.trichotomous _ _ h1 h2
      simp

theorem mem_ofList : b ∈ ofList l ↔ b ∈ l := by
  induction l with
  | nil => rfl
  | cons a l ih =>
    show b ∈ insert a (ofList l) ↔ _
    rw [mem_insert, ih, List.mem_cons]

theorem insert_perm (h : a ∉ l) : (insert a l).Perm (a :: l) := by
  induction l with
  | nil => exact .refl _
  | cons c l ih =>
    rw [insert]
    split
    · exact .refl _
    split
    · exact ((ih fun hc => h (List.mem_cons_of_mem _ hc)).cons c).trans (.swap a c l)
    · next h1 h2 =>
      obtain rfl : a = c := Std.Trichotomous.trichotomous _ _ h1 h2
      exact absurd (List.mem_cons_self ..) h

theorem ofList_perm (h : l.Nodup) : (ofList l).Perm l := by
  induction l with
  | nil => exact .refl _
  | cons a l ih =>
    obtain ⟨ha, hl⟩ := List.nodup_cons.1 h
    have hnew : a ∉ ofList l := fun hc => ha (mem_ofList.1 hc)
    exact (insert_perm hnew).trans ((ih hl).cons a)

section
variable [Trans (α := α) (· < ·) (· < ·) (· < ·)]

theorem pairwise_insert (a : α) (h : l.Pairwise (· < ·)) : (insert a l).Pairwise (· < ·) := by
  induction l with
  | nil => simp [insert]
  | cons c l ih =>
    obtain ⟨hc, hl⟩ := List.pairwise_cons.1 h
    rw [insert]
    split
    · next hac =>
      refine List.pairwise_cons.2 ⟨fun b hb => ?_, h⟩
      rcases List.mem_cons.1 hb with rfl | hb
      · exact hac
      · exact Trans.trans hac (hc b hb)
    split
    · next hca =>
      refine List.pairwise_cons.2 ⟨fun b hb => ?_, ih hl⟩
      rcases mem_insert.1 hb with rfl | hb
      · exact hca
      · exact hc b hb
    · exact h

theorem pairwise_ofList (l : List α) : (ofList l).Pairwise (· < ·) := by
  induction l with
  | nil => exact .nil
  | cons a l ih => exact pairwise_insert a ih

theorem nodup_ofList [Std.Irrefl (α := α) (· < ·)] (l : List α) : (ofList l).Nodup := by
  refine (pairwise_ofList l).imp ?_
  intro a b hlt heq
  subst heq
  exact Std.Irrefl.irrefl a hlt

/-- An increasing list is given by its members. -/
theorem ofList_eq_of_mem_iff [Std.Irrefl (α := α) (· < ·)] {l' : List α}
    (h : ∀ a, a ∈ l ↔ a ∈ l') : ofList l = ofList l' := by
  have : Std.Antisymm (α := α) (· < ·) :=
    ⟨fun a _ hab hba => absurd (Trans.trans hab hba) (Std.Irrefl.irrefl a)⟩
  apply (pairwise_ofList l).eq_of_mem_iff (pairwise_ofList l')
  intro a
  rw [mem_ofList, mem_ofList, h]

end

end Ordered

end Declutter
