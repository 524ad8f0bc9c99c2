import Mathlib
import Declutter.Proofs.Method.Shape
import Declutter.Proofs.Text.Words

/-!
# The name before a parenthesis

`name?` looks forwards for a name with a parenthesis behind it. `name?_exact` reads the same name
off backwards: from each opening parenthesis over the blanks before it, and over the characters of
names before those (`runBefore`). The first parenthesis whose run has a letter or an underscore
gives the name, from there on.

What stands before the first parenthesis counts only by the run at its end (`name?_append_paren`),
and no run goes over a parenthesis (`runBefore_append_paren`).
-/

namespace Declutter.Method

open Text

variable {c : Char} {before run gap s u : Text}

theorem not_isNameChar_of_isBlank (h : isBlank c) : isNameChar c = false := by
  rw [Bool.eq_false_iff]
  intro hname
  have := not_isWord_of_isBlank h
  rw [isWord_of_isNameChar hname] at this
  cases this

/-! ## Runs -/

/-- The longest run of name characters before a position, the blanks before it skipped; `before` is
all that stands there. -/
def runBefore (before : Text) : Text :=
  ((before.reverse.dropWhile isBlank).takeWhile isNameChar).reverse

theorem isNameChar_of_mem_runBefore (hc : c ∈ runBefore before) : isNameChar c :=
  List.all_eq_true.1 List.all_takeWhile c (List.mem_reverse.1 hc)

/-- Blanks follow the run, and neither of the two can be made longer. -/
theorem exists_runBefore (before : Text) : ∃ front gap, before = front ++ runBefore before ++ gap ∧
    (∀ c ∈ gap, isBlank c) ∧
    ∀ c ∈ front.getLast?, isNameChar c = false ∧ (runBefore before = [] → isBlank c = false) := by
  let t := before.reverse.dropWhile isBlank
  refine ⟨(t.dropWhile isNameChar).reverse, (before.reverse.takeWhile isBlank).reverse, ?_, ?_, ?_⟩
  · rw [runBefore, ← List.reverse_append, List.takeWhile_append_dropWhile, ← List.reverse_append,
      List.takeWhile_append_dropWhile, List.reverse_reverse]
  · intro c hc
    exact List.all_eq_true.1 List.all_takeWhile c (List.mem_reverse.1 hc)
  · intro c hc
    rw [List.getLast?_reverse] at hc
    refine ⟨stop_of_dropWhile isNameChar t c hc, fun hrun => ?_⟩
    have ht : t.dropWhile isNameChar = t := by
      conv_rhs => rw [← List.takeWhile_append_dropWhile (p := isNameChar) (l := t),
        List.reverse_eq_nil_iff.1 hrun, List.nil_append]
    rw [ht] at hc
    exact stop_of_dropWhile isBlank before.reverse c hc

theorem runBefore_append (front : Text) (hrun : ∀ c ∈ run, isNameChar c)
    (hgap : ∀ c ∈ gap, isBlank c)
    (hfront : ∀ c ∈ front.getLast?, isNameChar c = false ∧ (run = [] → isBlank c = false)) :
    runBefore (front ++ run ++ gap) = run := by
  have hstop : ∀ c ∈ (run.reverse ++ front.reverse).head?, isBlank c = false := by
    intro c hc
    rcases List.eq_nil_or_concat run with rfl | ⟨run', d, rfl⟩
    · exact (hfront c (by simpa using hc)).2 rfl
    · obtain rfl : d = c := by simpa using hc
      by_contra hblank
      have := not_isNameChar_of_isBlank (by simpa using hblank)
      rw [hrun d (by simp)] at this
      cases this
  unfold runBefore
  rw [List.reverse_append, List.reverse_append, dropWhile_of_stop (by simpa using hgap) hstop,
    takeWhile_of_stop (by simpa using hrun), List.reverse_reverse]
  intro c hc
  exact (hfront c (by simpa using hc)).1

theorem runBefore_of_gap (hrun : ∀ c ∈ run, isNameChar c) (hgap : ∀ c ∈ gap, isBlank c) :
    runBefore (run ++ gap) = run :=
  runBefore_append [] hrun hgap (by simp)

theorem runBefore_append_paren (u v : Text) : runBefore (u ++ '(' :: v) = runBefore v := by
  obtain ⟨front, gap, hv, hgap, hfront⟩ := exists_runBefore v
  have happ : u ++ '(' :: v = (u ++ '(' :: front) ++ runBefore v ++ gap := by
    rw [List.append_assoc, List.append_assoc, List.cons_append, ← List.append_assoc front, ← hv]
  rw [happ]
  refine runBefore_append _ (fun c hc => isNameChar_of_mem_runBefore hc) hgap fun c hc => ?_
  rcases List.eq_nil_or_concat front with rfl | ⟨front', d, rfl⟩
  · obtain rfl : '(' = c := by simpa using hc
    exact ⟨by decide, fun _ => by decide⟩
  · have hlast : u ++ '(' :: (front' ++ [d]) = (u ++ '(' :: front') ++ [d] := by simp
    rw [List.concat_eq_append, hlast, List.getLast?_concat] at hc
    exact hfront c (by simpa using hc)

/-- A character in front adds to the run only if the run has nothing but blanks around it. -/
theorem runBefore_cons (c : Char) (before : Text) :
    runBefore (c :: before) = runBefore before ∨
      isNameChar c ∧ runBefore (c :: before) = c :: runBefore before ∧
        ∃ gap, before = runBefore before ++ gap ∧ ∀ c ∈ gap, isBlank c := by
  have hrun : ∀ c ∈ runBefore before, isNameChar c := fun c hc => isNameChar_of_mem_runBefore hc
  obtain ⟨front, gap, hbefore, hgap, hfront⟩ := exists_runBefore before
  generalize runBefore before = run at *
  subst hbefore
  cases front with
  | nil =>
    by_cases hc : isNameChar c
    · refine .inr ⟨hc, ?_, gap, rfl, hgap⟩
      exact runBefore_of_gap (List.forall_mem_cons.2 ⟨hc, hrun⟩) hgap
    · left
      by_cases hblank : run = [] ∧ isBlank c
      · obtain ⟨rfl, hblank⟩ := hblank
        have hnil : ∀ d ∈ ([] : Text), isNameChar d := by simp
        exact runBefore_of_gap hnil (List.forall_mem_cons.2 ⟨hblank, hgap⟩)
      · refine runBefore_append [c] hrun hgap fun d hd => ?_
        obtain rfl : c = d := by simpa using hd
        simp_all
  | cons d front =>
    left
    refine runBefore_append (c :: d :: front) hrun hgap ?_
    rwa [List.getLast?_cons_cons]

/-! ## The name of a call -/

/-- The name that a parenthesis calls, after the text `before`: its run, from the first letter or
underscore on. -/
def calledAfter? (before : Text) : Option Text :=
  if (runBefore before).any isNameStart then
    some ((runBefore before).dropWhile fun c => !isNameStart c)
  else none

theorem stop_of_gap (hgap : ∀ c ∈ gap, isBlank c) (v : Text) :
    ∀ c ∈ (gap ++ '(' :: v).head?, isNameChar c = false := by
  intro c hc
  cases gap with
  | nil =>
    obtain rfl : '(' = c := by simpa using hc
    decide
  | cons d gap =>
    obtain rfl : d = c := by simpa using hc
    exact not_isNameChar_of_isBlank (hgap d (List.mem_cons_self ..))

theorem opensParameters_iff (hu : '(' ∉ u) (v : Text) :
    opensParameters ((u ++ '(' :: v).dropWhile isNameChar) ↔
      ∃ run gap, u = run ++ gap ∧ (∀ c ∈ run, isNameChar c) ∧ ∀ c ∈ gap, isBlank c := by
  unfold opensParameters trimStart
  rw [beq_iff_eq, List.head?_eq_some_iff]
  constructor
  · intro h
    obtain ⟨w, hw⟩ := h
    have hrun := List.all_eq_true.1 (List.all_takeWhile (p := isNameChar) (l := u ++ '(' :: v))
    have hgap := List.all_eq_true.1
      (List.all_takeWhile (p := isBlank) (l := (u ++ '(' :: v).dropWhile isNameChar))
    have hparts := List.takeWhile_append_dropWhile (p := isNameChar) (l := u ++ '(' :: v)
    rw [← List.takeWhile_append_dropWhile (p := isBlank)
      (l := (u ++ '(' :: v).dropWhile isNameChar), hw, ← List.append_assoc] at hparts
    generalize (u ++ '(' :: v).takeWhile isNameChar = run at *
    generalize ((u ++ '(' :: v).dropWhile isNameChar).takeWhile isBlank = gap at *
    refine ⟨run, gap, (append_cons_inj ?_ hu hparts).1.symm, hrun, hgap⟩
    rw [List.mem_append, not_or]
    exact ⟨fun h => absurd (hrun _ h) (by decide), not_mem_of_isBlank (by decide) hgap⟩
  · intro h
    obtain ⟨run, gap, rfl, hrun, hgap⟩ := h
    refine ⟨v, ?_⟩
    rw [List.append_assoc, dropWhile_of_stop hrun (stop_of_gap hgap v), dropWhile_of_stop hgap]
    intro c hc
    obtain rfl : '(' = c := by simpa using hc
    decide

theorem calledAfter?_cons
    (h : isNameStart c → ¬ ∃ gap, before = runBefore before ++ gap ∧ ∀ c ∈ gap, isBlank c) :
    calledAfter? (c :: before) = calledAfter? before := by
  unfold calledAfter?
  rcases runBefore_cons c before with heq | ⟨-, heq, hgap⟩
  · rw [heq]
  · have hc : isNameStart c = false := by
      rw [Bool.eq_false_iff]
      exact fun hc => h hc hgap
    rw [heq, List.any_cons, hc, Bool.false_or, List.dropWhile_cons_of_pos (by simp [hc])]

/-- **Up to the first parenthesis**, the run before it gives the name, or nothing does. -/
theorem name?_append_paren (hu : '(' ∉ u) (v : Text) :
    name? (u ++ '(' :: v) = (calledAfter? u).or (name? v) := by
  induction u with
  | nil => simp [name?, isNameStart, calledAfter?, runBefore]
  | cons c u ih =>
    rw [List.mem_cons, not_or] at hu
    rw [List.cons_append, name?, ih hu.2]
    by_cases hc : isNameStart c && opensParameters ((u ++ '(' :: v).dropWhile isNameChar)
    · rw [if_pos hc]
      rw [Bool.and_eq_true, opensParameters_iff hu.2] at hc
      obtain ⟨hstart, run, gap, rfl, hrun, hgap⟩ := hc
      have hrunBefore : runBefore (c :: (run ++ gap)) = c :: run :=
        runBefore_of_gap (List.forall_mem_cons.2 ⟨isNameChar_of_isNameStart hstart, hrun⟩) hgap
      rw [List.append_assoc, takeWhile_of_stop hrun (stop_of_gap hgap v), calledAfter?, hrunBefore]
      simp [hstart]
    · rw [if_neg hc, calledAfter?_cons]
      intro hstart hgap
      obtain ⟨gap, hgap⟩ := hgap
      refine hc ?_
      rw [hstart, Bool.true_and, opensParameters_iff hu.2]
      exact ⟨_, gap, hgap.1, fun c hc => isNameChar_of_mem_runBefore hc, hgap.2⟩

theorem name?_of_not_mem (hu : '(' ∉ u) : name? u = none := by
  induction u with
  | nil => rfl
  | cons c u ih =>
    rw [List.mem_cons, not_or] at hu
    rw [name?, if_neg, ih hu.2]
    intro hc
    rw [Bool.and_eq_true, opensParameters, beq_iff_eq] at hc
    have hmem := List.mem_of_mem_head? hc.2
    exact hu.2 ((List.dropWhile_sublist _).mem ((List.dropWhile_sublist _).mem hmem))

/-! ## All parentheses -/

theorem calledAfter?_eq_none_iff :
    calledAfter? before = none ↔ ∀ c ∈ runBefore before, isNameStart c = false := by
  simp [calledAfter?]

theorem calledAfter?_of_exists (h : ∃ c ∈ runBefore before, isNameStart c) :
    calledAfter? before = some ((runBefore before).dropWhile fun c => !isNameStart c) :=
  if_pos (List.any_eq_true.2 h)

/-- A parenthesis is the first one, or stands behind it. -/
theorem paren_append_iff (hu : '(' ∉ u) {v : Text} {p : Nat} :
    (u ++ '(' :: v)[p]? = some '(' ↔
      p = u.length ∨ ∃ q, p = u.length + 1 + q ∧ v[q]? = some '(' := by
  rcases Nat.lt_trichotomy p u.length with hlt | rfl | hlt
  · rw [List.getElem?_append_left hlt]
    refine iff_of_false (fun h => hu (List.mem_of_getElem? h)) fun h => ?_
    rcases h with rfl | ⟨q, rfl, -⟩ <;> omega
  · simp
  · obtain ⟨q, rfl⟩ := Nat.exists_eq_add_of_lt hlt
    have hp : u.length + q + 1 = u.length + 1 + q := by omega
    rw [hp, List.getElem?_append_right (by omega)]
    have hq : u.length + 1 + q - u.length = q + 1 := by omega
    rw [hq, List.getElem?_cons_succ]
    constructor
    · exact fun h => .inr ⟨q, rfl, h⟩
    · intro h
      rcases h with h | ⟨q', h, hq'⟩
      · omega
      · obtain rfl : q = q' := by omega
        exact hq'

/-- What stands before the first parenthesis does not matter behind it. -/
theorem calledAfter?_take (u v : Text) (q : Nat) :
    calledAfter? ((u ++ '(' :: v).take (u.length + 1 + q)) = calledAfter? (v.take q) := by
  unfold calledAfter?
  rw [Nat.add_assoc, List.take_length_add_append, Nat.add_comm 1, List.take_succ_cons,
    runBefore_append_paren]

/-- The first parenthesis that calls a name gives it. -/
theorem name?_cases (s : Text) :
    (name? s = none ∧ ∀ p, s[p]? = some '(' → calledAfter? (s.take p) = none) ∨
      ∃ p n, s[p]? = some '(' ∧ calledAfter? (s.take p) = some n ∧ name? s = some n ∧
        ∀ q < p, s[q]? = some '(' → calledAfter? (s.take q) = none := by
  induction hlen : s.length using Nat.strong_induction_on generalizing s with
  | h len ih =>
    by_cases hmem : '(' ∈ s
    · obtain ⟨u, v, rfl, hu⟩ := List.eq_append_cons_of_mem hmem
      have hv : v.length < len := by
        rw [← hlen, List.length_append, List.length_cons]
        omega
      have hfirst : (u ++ '(' :: v).take u.length = u := by simp
      cases hcalled : calledAfter? u with
      | some n =>
        refine .inr ⟨u.length, n, (paren_append_iff hu).2 (.inl rfl), by rw [hfirst, hcalled],
          ?_, ?_⟩
        · rw [name?_append_paren hu, hcalled, Option.some_or]
        · intro q hq hparen
          rcases (paren_append_iff hu).1 hparen with rfl | ⟨q', rfl, -⟩ <;> omega
      | none =>
        rw [name?_append_paren hu, hcalled, Option.none_or]
        rcases ih _ hv v rfl with ⟨hnone, hall⟩ | ⟨p, n, hp, hn, hname, hbefore⟩
        · refine .inl ⟨hnone, fun p hparen => ?_⟩
          rcases (paren_append_iff hu).1 hparen with rfl | ⟨q, rfl, hq⟩
          · rw [hfirst, hcalled]
          · rw [calledAfter?_take, hall q hq]
        · refine .inr ⟨u.length + 1 + p, n, (paren_append_iff hu).2 (.inr ⟨p, rfl, hp⟩), ?_,
            hname, ?_⟩
          · rw [calledAfter?_take, hn]
          · intro q hq hparen
            rcases (paren_append_iff hu).1 hparen with rfl | ⟨q', rfl, hq'⟩
            · rw [hfirst, hcalled]
            · rw [calledAfter?_take, hbefore q' (by omega) hq']
    · exact .inl ⟨name?_of_not_mem hmem, fun p hp => absurd (List.mem_of_getElem? hp) hmem⟩

/-- **A method name is exact.** There is none if no run before a parenthesis has a letter or an
underscore. Otherwise it is the run before the first parenthesis where there is one, from there
on. -/
theorem name?_exact (s : Text) :
    (name? s = none ↔
      ∀ p, s[p]? = some '(' → ∀ c ∈ runBefore (s.take p), isNameStart c = false) ∧
    ∀ p, s[p]? = some '(' → (∃ c ∈ runBefore (s.take p), isNameStart c) →
      (∀ q < p, s[q]? = some '(' → ∀ c ∈ runBefore (s.take q), isNameStart c = false) →
      name? s = some ((runBefore (s.take p)).dropWhile fun c => !isNameStart c) := by
  simp only [← calledAfter?_eq_none_iff]
  rcases name?_cases s with ⟨hnone, hall⟩ | ⟨p, n, hp, hn, hname, hbefore⟩
  · refine ⟨iff_of_true hnone hall, fun p hp hrun _ => ?_⟩
    have := hall p hp
    rw [calledAfter?_of_exists hrun] at this
    cases this
  · refine ⟨iff_of_false (by simp [hname]) fun hall => ?_, fun p' hp' hrun hbefore' => ?_⟩
    · rw [hall p hp] at hn
      cases hn
    · -- both parentheses are the first
      have hcalled := calledAfter?_of_exists hrun
      have hle : ¬ p < p' := fun hlt => by
        rw [hbefore' p hlt hp] at hn
        cases hn
      have hge : ¬ p' < p := fun hlt => by
        rw [hbefore p' hlt hp'] at hcalled
        cases hcalled
      obtain rfl : p = p' := by omega
      rw [hname, ← hn, hcalled]

/-- No name before the first parenthesis, digits before the second, and a name behind a letter that
names do not have before the third. -/
def callText : Text := "f<T>(12 (é9_b\t(".toList

theorem name?_callText :
    callText[14]? = some '(' ∧ (∃ c ∈ runBefore (callText.take 14), isNameStart c) ∧
    (∀ q < 14, callText[q]? = some '(' → ∀ c ∈ runBefore (callText.take q), isNameStart c = false) ∧
    name? callText = some "_b".toList := by
  have hrun : ∃ c ∈ runBefore (callText.take 14), isNameStart c := ⟨'_', by decide, by decide⟩
  have hall : ∀ q < 14, callText[q]? = some '(' →
      (runBefore (callText.take q)).all (!isNameStart ·) := by decide
  have hbefore : ∀ q < 14, callText[q]? = some '(' →
      ∀ c ∈ runBefore (callText.take q), isNameStart c = false := by
    intro q hq hparen c hc
    simpa using List.all_eq_true.1 (hall q hq hparen) c hc
  exact ⟨by decide, hrun, hbefore, (name?_exact callText).2 14 (by decide) hrun hbefore⟩

end Declutter.Method
