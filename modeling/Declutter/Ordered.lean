/-!
# Increasing lists and maps

Sets and maps whose order shows in the output are kept as strictly increasing lists, so that equal
contents mean equal values. `Ordered.ofList` is the set of the members of a list; an `OrderedMap`
pairs each key with one value and carries the proof that its keys increase.
-/

namespace Declutter

namespace Ordered

variable {α : Type} [LT α] [DecidableLT α]

/-- Puts a member into an increasing list, unless it is there already. -/
def insert (a : α) : List α → List α
  | [] => [a]
  | b :: l => if a < b then a :: b :: l else if b < a then b :: insert a l else b :: l

/-- The members of a list, each once, in increasing order. -/
def ofList (l : List α) : List α := l.foldr insert []

end Ordered

/-- A map with its entries in increasing order of their keys. -/
structure OrderedMap (κ ν : Type) [LT κ] where
  entries : List (κ × ν)
  increasing : entries.Pairwise (·.1 < ·.1)

namespace OrderedMap

variable {κ ν : Type} [LT κ]

instance [DecidableEq κ] [DecidableEq ν] : DecidableEq (OrderedMap κ ν) := fun a b =>
  decidable_of_iff (a.entries = b.entries) (by cases a; cases b; simp)

/-- The map without entries. -/
def empty : OrderedMap κ ν := ⟨[], .nil⟩

/-- The value at a key. -/
def get? [BEq κ] (m : OrderedMap κ ν) (k : κ) : Option ν := m.entries.lookup k

/-- The entries whose keys pass a test. -/
def filterKeys (m : OrderedMap κ ν) (p : κ → Bool) : OrderedMap κ ν :=
  ⟨m.entries.filter (p ·.1), m.increasing.filter _⟩

variable [DecidableLT κ]

/-- Puts an entry into a list of entries, in place of one with the same key. -/
def insertEntry (k : κ) (v : ν) : List (κ × ν) → List (κ × ν)
  | [] => [(k, v)]
  | e :: l =>
    if k < e.1 then (k, v) :: e :: l
    else if e.1 < k then e :: insertEntry k v l
    else (k, v) :: l

theorem mem_insertEntry {k : κ} {v : ν} {l : List (κ × ν)} {e : κ × ν}
    (h : e ∈ insertEntry k v l) : e = (k, v) ∨ e ∈ l := by
  induction l with
  | nil => simpa [insertEntry] using h
  | cons a l ih =>
    simp only [insertEntry] at h
    split at h
    · simpa using h
    split at h
    · rcases List.mem_cons.1 h with rfl | h
      · simp
      · rcases ih h with rfl | h <;> simp [*]
    · rcases List.mem_cons.1 h with rfl | h <;> simp [*]

theorem increasing_insertEntry [Trans (α := κ) (· < ·) (· < ·) (· < ·)]
    [Std.Trichotomous (α := κ) (· < ·)] (k : κ) (v : ν) {l : List (κ × ν)}
    (h : l.Pairwise (·.1 < ·.1)) : (insertEntry k v l).Pairwise (·.1 < ·.1) := by
  induction l with
  | nil => simp [insertEntry]
  | cons a l ih =>
    obtain ⟨ha, hl⟩ := List.pairwise_cons.1 h
    simp only [insertEntry]
    split
    · next hk =>
      refine List.pairwise_cons.2 ⟨fun e he => ?_, h⟩
      rcases List.mem_cons.1 he with rfl | he
      · exact hk
      · exact Trans.trans (r := (· < ·)) hk (ha e he)
    split
    · next hk =>
      refine List.pairwise_cons.2 ⟨fun e he => ?_, ih hl⟩
      rcases mem_insertEntry he with rfl | he
      · exact hk
      · exact ha e he
    · next hlt hgt =>
      obtain rfl : k = a.1 := Std.Trichotomous.trichotomous _ _ hlt hgt
      exact List.pairwise_cons.2 ⟨ha, hl⟩

/-- Sets the value at a key. -/
def insert [Trans (α := κ) (· < ·) (· < ·) (· < ·)] [Std.Trichotomous (α := κ) (· < ·)]
    (m : OrderedMap κ ν) (k : κ) (v : ν) : OrderedMap κ ν :=
  ⟨insertEntry k v m.entries, increasing_insertEntry k v m.increasing⟩

end OrderedMap

end Declutter
