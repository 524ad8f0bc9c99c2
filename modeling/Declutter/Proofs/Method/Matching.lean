import Mathlib.Order.Bounds.Basic
import Declutter.Proofs.Method.Balance

/-!
# The matching brace of a position

`matching?` counts the braces among the bytes of a text, from any position on. `matching?_exact`
says where it stops: at the first closing brace up to which the braces balance (`BalancesAt`). The
count may go below zero where it does not start on an opening brace, and come back later. Where it
does, it stays above zero until it stops (`balance_pos_of_none`).
-/

namespace Declutter.Brace

variable {α : Type} {brace : α → Option Brace} {x : α} {xs : List α} {bytes : List UInt8}
  {start c n : Nat}

/-- The bytes from `start` up to and with position `c`. -/
def stretch (bytes : List UInt8) (start c : Nat) : List UInt8 := bytes.extract start (c + 1)

/-- A closing brace stands at `c`, not before `start`, and from `start` up to it there are as many
opening braces as closing ones. -/
def BalancesAt (bytes : List UInt8) (start c : Nat) : Prop :=
  start ≤ c ∧ bytes[c]? = some 0x7D ∧
    (stretch bytes start c).count 0x7B = (stretch bytes start c).count 0x7D

/-- From `start` up to and with position `c` there are more opening braces than closing ones. -/
def OpenAt (bytes : List UInt8) (start c : Nat) : Prop :=
  (stretch bytes start c).count 0x7D < (stretch bytes start c).count 0x7B

theorem ofByte_eq_opening {b : UInt8} : ofByte b = some .opening ↔ b = 0x7B := by
  unfold ofByte
  by_cases hopen : b = 0x7B
  · simp [hopen]
  · by_cases hclose : b = 0x7D <;> simp [hopen, hclose]

theorem ofByte_eq_closing {b : UInt8} : ofByte b = some .closing ↔ b = 0x7D := by
  unfold ofByte
  by_cases hclose : b = 0x7D
  · simp [hclose]
  · by_cases hopen : b = 0x7B <;> simp [hopen, hclose]

theorem balance_ofByte (bytes : List UInt8) :
    balance ofByte bytes = (bytes.count 0x7B : Int) - bytes.count 0x7D := by
  have hopen : (fun b => ofByte b == some .opening) = (· == 0x7B) := by
    funext b
    rw [Bool.eq_iff_iff, beq_iff_eq, beq_iff_eq, ofByte_eq_opening]
  have hclose : (fun b => ofByte b == some .closing) = (· == 0x7D) := by
    funext b
    rw [Bool.eq_iff_iff, beq_iff_eq, beq_iff_eq, ofByte_eq_closing]
  rw [balance, hopen, hclose, List.count_eq_countP, List.count_eq_countP]

theorem stretch_add (bytes : List UInt8) (start n : Nat) :
    stretch bytes start (start + n) = (bytes.drop start).take (n + 1) := by
  rw [stretch, List.extract_eq_take_drop]
  congr 1
  omega

theorem balancesAt_add :
    BalancesAt bytes start (start + n) ↔ Returns ofByte 0 (bytes.drop start) n := by
  unfold BalancesAt Returns
  rw [stretch_add, balance_ofByte, List.getElem?_drop, Option.bind_eq_some_iff]
  simp only [ofByte_eq_closing, exists_eq_right]
  constructor
  · intro h
    exact ⟨h.2.1, by omega⟩
  · intro h
    exact ⟨Nat.le_add_right .., h.1, by omega⟩

theorem openAt_add :
    OpenAt bytes start (start + n) ↔ 0 < balance ofByte ((bytes.drop start).take (n + 1)) := by
  rw [OpenAt, stretch_add, balance_ofByte]
  omega

theorem closes_iff_isLeast : Closes ofByte 0 (bytes.drop start) n ↔
    IsLeast {c | BalancesAt bytes start c} (start + n) := by
  unfold Closes IsLeast lowerBounds
  simp only [Set.mem_ofPred_eq, balancesAt_add]
  refine and_congr_right fun _ => ?_
  constructor
  · intro hfirst c hc
    obtain ⟨k, rfl⟩ := Nat.exists_eq_add_of_le hc.1
    by_contra hlt
    exact hfirst k (by omega) (balancesAt_add.1 hc)
  · intro hleast k hk hreturns
    have := hleast (balancesAt_add.2 hreturns)
    omega

/-- Within an open brace, the balance is above zero where it is not closed. -/
theorem balance_pos_of_none (hx : brace x = some .opening)
    (h : close? brace 0 (x :: xs) = none) : 0 < balance brace (x :: xs) := by
  rw [close?_opening hx, Option.map_eq_none_iff] at h
  have := level_pos (Int.le_refl 1) h
  rw [balance_cons, hx]
  exact this

theorem openAt_of_none (hopen : bytes[start]? = some 0x7B)
    (h : close? ofByte 0 ((bytes.drop start).take (n + 1)) = none) :
    OpenAt bytes start (start + n) := by
  obtain ⟨hlt, hbyte⟩ := List.getElem?_eq_some_iff.1 hopen
  rw [List.drop_eq_getElem_cons hlt, hbyte, List.take_succ_cons] at h
  rw [openAt_add, List.drop_eq_getElem_cons hlt, hbyte, List.take_succ_cons]
  exact balance_pos_of_none (ofByte_eq_opening.2 rfl) h

theorem OpenAt.not_balancesAt (h : OpenAt bytes start c) : ¬ BalancesAt bytes start c :=
  fun hbalances => Nat.ne_of_lt h hbalances.2.2.symm

theorem BalancesAt.lt_length (h : BalancesAt bytes start c) : c < bytes.length :=
  (List.getElem?_eq_some_iff.1 h.2.1).1

/-! ## What is found -/

variable {s : Text}

theorem matching?_of_le (h : start ≤ s.utf8.length) :
    matching? s start = .ok ((close? ofByte 0 (s.utf8.drop start)).map (start + ·)) := if_pos h

theorem matching?_eq_error_iff : (∃ e, matching? s start = .error e) ↔ s.utf8.length < start := by
  by_cases hstart : start ≤ s.utf8.length
  · rw [matching?_of_le hstart]
    exact iff_of_false nofun (by omega)
  · exact iff_of_true ⟨_, if_neg hstart⟩ (by omega)

theorem matching?_eq_some_iff :
    matching? s start = .ok (some c) ↔ IsLeast {c | BalancesAt s.utf8 start c} c := by
  by_cases hstart : start ≤ s.utf8.length
  · rw [matching?_of_le hstart, Except.ok.injEq, Option.map_eq_some_iff]
    simp only [close?_eq_some_iff, closes_iff_isLeast]
    constructor
    · intro h
      obtain ⟨n, hn, rfl⟩ := h
      exact hn
    · intro h
      obtain ⟨n, rfl⟩ := Nat.exists_eq_add_of_le h.1.1
      exact ⟨n, h, rfl⟩
  · obtain ⟨e, he⟩ := matching?_eq_error_iff.2 (Nat.lt_of_not_le hstart)
    rw [he]
    refine iff_of_false nofun fun h => ?_
    have := h.1.1
    have := h.1.lt_length
    omega

/-- From an opening brace on, the braces stay open until its match, and only there they balance. -/
theorem matching?_some_of_opening (hopen : s.utf8[start]? = some 0x7B) :
    matching? s start = .ok (some c) ↔ BalancesAt s.utf8 start c ∧
      ∀ k, start ≤ k → k < c → OpenAt s.utf8 start k := by
  constructor
  · intro h
    refine ⟨(matching?_eq_some_iff.1 h).1, fun k hk hkc => ?_⟩
    have hlt := (List.getElem?_eq_some_iff.1 hopen).1
    rw [matching?_of_le hlt.le, Except.ok.injEq, Option.map_eq_some_iff] at h
    obtain ⟨n, hn, rfl⟩ := h
    obtain ⟨j, rfl⟩ := Nat.exists_eq_add_of_le hk
    rw [← List.take_append_drop (j + 1) (s.utf8.drop start)] at hn
    refine openAt_of_none hopen (close?_eq_none_of_le hn ?_)
    exact (List.length_take_le ..).trans (by omega)
  · intro h
    refine matching?_eq_some_iff.2 ⟨h.1, fun k hk => ?_⟩
    by_contra hlt
    exact (h.2 k hk.1 (by omega)).not_balancesAt hk

/-- An opening brace has no match if the braces stay open up to the end. -/
theorem matching?_none_of_opening (hopen : s.utf8[start]? = some 0x7B) :
    matching? s start = .ok none ↔
      ∀ k, start ≤ k → k < s.utf8.length → OpenAt s.utf8 start k := by
  have hlt := (List.getElem?_eq_some_iff.1 hopen).1
  rw [matching?_of_le hlt.le, Except.ok.injEq, Option.map_eq_none_iff]
  constructor
  · intro h k hk _
    obtain ⟨j, rfl⟩ := Nat.exists_eq_add_of_le hk
    rw [← List.take_append_drop (j + 1) (s.utf8.drop start)] at h
    refine openAt_of_none hopen (Option.eq_none_iff_forall_ne_some.2 fun n hn => ?_)
    rw [(close?_append_of_some hn _).1] at h
    cases h
  · intro h
    refine Option.eq_none_iff_forall_ne_some.2 fun n hn => ?_
    rw [close?_eq_some_iff, closes_iff_isLeast] at hn
    exact (h _ hn.1.1 hn.1.lt_length).not_balancesAt hn.1

/-- **The matching brace is exact.** From a position of a text, the first closing brace up to which
the braces balance is found, and only a position beyond the end is an error. From an opening brace
on, there are more opening than closing braces up to each position before the match, and up to every
position if there is no match. -/
theorem matching?_exact (s : Text) (start : Nat) :
    (∀ c, matching? s start = .ok (some c) ↔ IsLeast {c | BalancesAt s.utf8 start c} c) ∧
    ((∃ e, matching? s start = .error e) ↔ s.utf8.length < start) ∧
    (s.utf8[start]? = some 0x7B →
      (∀ c, matching? s start = .ok (some c) ↔ BalancesAt s.utf8 start c ∧
        ∀ k, start ≤ k → k < c → OpenAt s.utf8 start k) ∧
      (matching? s start = .ok none ↔
        ∀ k, start ≤ k → k < s.utf8.length → OpenAt s.utf8 start k)) := by
  refine ⟨fun c => matching?_eq_some_iff, matching?_eq_error_iff, fun hopen => ⟨fun c => ?_, ?_⟩⟩
  · exact matching?_some_of_opening hopen
  · exact matching?_none_of_opening hopen

/-- A character of two bytes, a body with one within, and a brace that is not closed. -/
def accentText : Text := "é\x7b\x7b\x7d\x7d\x7d\x7b".toList

theorem matching?_accentText :
    accentText.utf8[2]? = some 0x7B ∧ matching? accentText 2 = .ok (some 5) ∧
    BalancesAt accentText.utf8 2 5 ∧ OpenAt accentText.utf8 2 4 ∧
    accentText.utf8[7]? = some 0x7B ∧ matching? accentText 7 = .ok none ∧
    OpenAt accentText.utf8 7 7 := by
  have hfound : matching? accentText 2 = .ok (some 5) := by decide
  have hnone : matching? accentText 7 = .ok none := by decide
  obtain ⟨-, -, hopen⟩ := matching?_exact accentText 2
  obtain ⟨-, -, hlast⟩ := matching?_exact accentText 7
  obtain ⟨hbalances, hstays⟩ := ((hopen (by decide)).1 5).1 hfound
  refine ⟨by decide, hfound, hbalances, hstays 4 (by decide) (by decide), by decide, hnone, ?_⟩
  exact (hlast (by decide)).2.1 hnone 7 (by decide) (by decide)

end Declutter.Brace
