import Declutter.Proofs.Method.Grammar
import Declutter.Proofs.Method.Openings

/-!
# Methods within methods

`IsLong modifiers threshold t`: the text begins with a long method whose signature has no closing
brace. From its line on, this is what a text is that has such a method (`isLong_of_flagged`).

A method that begins within the body of another ends there too, if its signature has no closing
brace (`lt_of_isLong`). So what is within a short method is short.
-/

namespace Declutter.Method

open Text

variable {modifiers : List Text} {threshold n : Nat} {s t a : Text} {o o' : Opening}

theorem opening?_eq_append (h : opening? modifiers s = some o) : s = o.signature ++ o.tail := by
  rw [opening?_eq_some h]
  simp [Opening.head, Opening.tail]

/-- A text begins with a method that spans more than `threshold` line ends, and whose signature has
no closing brace. -/
def IsLong (modifiers : List Text) (threshold : Nat) (t : Text) : Prop :=
  ∃ o k, opening? modifiers t = some o ∧ '}' ∉ o.signature ∧ o.lineSpan? = some k ∧ threshold < k

section
variable (hm : PlainWords modifiers)
include hm

theorem not_mem_signature (h : opening? modifiers s = some o) : '{' ∉ o.signature := by
  obtain ⟨y, -, rfl⟩ := (opening?_eq_some_iff hm.shape).1 h
  have hindent : '{' ∉ y.indent := fun hc => absurd (y.indented _ hc) (by decide)
  have hparams : '{' ∉ y.parameters := fun hc => (y.inLine _ hc).2.2 rfl
  simp [Shape.opening, Shape.signature, hindent, hparams, (hm _ y.mem_modifiers).2.1]

/-- What begins like a method, after a line feed within a method, is within its body. -/
theorem level_within (h : opening? modifiers s = some o)
    (hclose : Brace.close? Brace.ofChar 0 o.tail = some n) (hsplit : o.tail = a ++ '\n' :: t)
    (hlt : a.length < n) (ht : opening? modifiers t ≠ none) :
    Brace.close? Brace.ofChar 0 a = none ∧ 1 ≤ Brace.balance Brace.ofChar a := by
  have hblank := isBlank_of_opening? hm h
  have hnone : Brace.close? Brace.ofChar 0 a = none := by
    rw [hsplit] at hclose
    exact Brace.close?_eq_none_of_le hclose (Nat.le_of_lt hlt)
  refine ⟨hnone, ?_⟩
  rcases List.append_eq_append_iff.1 hsplit with ⟨b, rfl, hb⟩ | ⟨g, hgap, hg⟩
  · cases b with
    | nil =>
      obtain ⟨hc, -⟩ := List.cons.inj hb
      exact absurd hc (by decide)
    | cons c b =>
      obtain ⟨rfl, -⟩ := List.cons.inj hb
      have hpart : Brace.close? Brace.ofChar 1 b = none := by
        rw [close?_gap hblank, Option.map_eq_none_iff, Brace.close?_opening ofChar_opening,
          Option.map_eq_none_iff] at hnone
        exact hnone
      have hlevel := Brace.level_pos (Int.le_refl 1) hpart
      have hzero : Brace.balance Brace.ofChar o.gap = 0 :=
        (Brace.close?_of_forall 0 fun c hc => ofChar_of_isBlank (hblank c hc)).2
      have hbrace : Brace.weight (Brace.ofChar '{') = 1 := rfl
      rw [Brace.balance_append, Brace.balance_cons, hzero, hbrace]
      omega
  · -- between the signature and the brace there are only blanks
    cases g with
    | nil =>
      obtain ⟨hc, -⟩ := List.cons.inj hg
      exact absurd hc (by decide)
    | cons c g =>
      obtain ⟨rfl, rfl⟩ := List.cons.inj hg
      refine absurd (opening?_blank hm (fun c hc => hblank c ?_) (.inl rfl)) ht
      rw [hgap]
      simp [hc]

omit hm in
theorem close?_tail_le {level : Int} {n' : Nat} (hgap : ∀ c ∈ o.gap, isBlank c) (hlevel : 0 ≤ level)
    (h : Brace.close? Brace.ofChar 0 o.tail = some n)
    (h' : Brace.close? Brace.ofChar level o.tail = some n') : n ≤ n' := by
  have htail : ∀ level, Brace.close? Brace.ofChar level o.tail =
      (Brace.close? Brace.ofChar (level + 1) o.body).map (· + 1 + o.gap.length) := by
    intro level
    rw [Opening.tail, close?_gap hgap, Brace.close?_opening ofChar_opening, Option.map_map]
    rfl
  rw [htail] at h h'
  obtain ⟨k, hk, rfl⟩ := Option.map_eq_some_iff.1 h
  obtain ⟨k', hk', rfl⟩ := Option.map_eq_some_iff.1 h'
  have := Brace.close?_le (by omega) (by omega) hk hk'
  omega

/-- **What begins within a method ends within it**, so a method with a long one in its body is
long. -/
theorem lt_of_isLong (h : opening? modifiers s = some o)
    (hclose : Brace.close? Brace.ofChar 0 o.tail = some n) (hsplit : o.tail = a ++ '\n' :: t)
    (hlt : a.length < n) (ht : IsLong modifiers threshold t) :
    threshold < feeds (o.tail.take n) := by
  obtain ⟨o', k, hopen, hsig, hspan, hk⟩ := ht
  obtain ⟨i, hi, rfl⟩ := Option.map_eq_some_iff.1 hspan
  obtain ⟨hnone, hlevel⟩ := level_within hm h hclose hsplit hlt (by simp [hopen])
  have hline : ∀ c ∈ '\n' :: o'.signature, Brace.ofChar c = none := by
    refine List.forall_mem_cons.2 ⟨rfl, fun c hc => ofChar_eq_none ?_ ?_⟩
    · intro heq
      exact not_mem_signature hm hopen (heq ▸ hc)
    · intro heq
      exact hsig (heq ▸ hc)
  have hparts : o.tail = a ++ (('\n' :: o'.signature) ++ o'.tail) := by
    rw [hsplit, opening?_eq_append hopen]
    rfl
  -- from the level within the outer body, the inner body ends where it does on its own, or earlier
  obtain ⟨j, hj, rfl⟩ : ∃ j, Brace.close? Brace.ofChar (0 + Brace.balance Brace.ofChar a) o'.tail =
      some j ∧ j + ('\n' :: o'.signature).length + a.length = n := by
    obtain ⟨hskip, hzero⟩ :=
      Brace.close?_of_forall (0 + Brace.balance Brace.ofChar a) hline
    rw [hparts, Brace.close?_append_of_none hnone, Brace.close?_append_of_none hskip, hzero,
      Int.add_zero, Option.map_map, Option.map_eq_some_iff] at hclose
    exact hclose
  have hle : i ≤ j := close?_tail_le (isBlank_of_opening? hm hopen) (by omega) hi hj
  have hinner : feeds (o'.tail.take i) ≤ feeds (o'.tail.take j) :=
    (List.take_prefix_take_left hle).sublist.count_le _
  have htake : o.tail.take (j + ('\n' :: o'.signature).length + a.length) =
      a ++ (('\n' :: o'.signature) ++ o'.tail.take j) := by
    rw [hparts, Nat.add_comm, List.take_length_add_append, Nat.add_comm j,
      List.take_length_add_append]
  have hfeed : feeds ('\n' :: o'.signature) = feeds o'.signature + 1 := List.count_cons_self
  rw [htake, feeds_append, feeds_append, hfeed]
  omega

end

/-! ## The long methods of a text -/

section
variable {x : Lexicon} {m : Span} (hm : PlainWords (x.modifiers.filter (· ≠ [])))
include hm

/-- A method that is found has an opening at the beginning of its line. -/
theorem exists_opening_of_mem_scan (h : m ∈ scan x s) : ∃ before t o k,
    s = before ++ t ∧ startsLine before ∧ opening? (x.modifiers.filter (· ≠ [])) t = some o ∧
      o.lineSpan? = some k ∧ m.startLine = feeds before ∧ m.lineSpan = k ∧
      ('}' ∉ m.signature → '}' ∉ o.signature) := by
  obtain ⟨before, t, o, hs, hstart, hopen, hspan⟩ := scanFrom_opening h
  rw [Nat.zero_add, span?_of_opening? hm hopen] at hspan
  obtain ⟨k, hk, rfl⟩ := Option.map_eq_some_iff.1 hspan
  refine ⟨before, t, o, k, hs, hstart, hopen, hk, rfl, Nat.add_sub_cancel_left .., ?_⟩
  intro hsig
  obtain ⟨y, -, rfl⟩ := (opening?_eq_some_iff hm.shape).1 hopen
  have hindent : '}' ∉ y.indent := fun hc => absurd (y.indented _ hc) (by decide)
  have htrim : y.opening.signature.trim = y.signature :=
    trim_signature y (hm.shape _ y.mem_modifiers).2.2
  exact List.not_mem_append hindent (htrim ▸ hsig)

/-- A long method does not begin on the last line. -/
theorem startLine_lt_of_flagged (h : m ∈ flagged x threshold s) :
    m.startLine + 1 < s.lines.length := by
  obtain ⟨hscan, hlong⟩ := List.mem_filter.1 h
  obtain ⟨before, t, o, k, rfl, -, hopen, hspan, hstart, rfl, -⟩ :=
    exists_opening_of_mem_scan hm hscan
  obtain ⟨n, -, hn⟩ := Option.map_eq_some_iff.1 hspan
  have hle : feeds (o.tail.take n) ≤ feeds o.tail := (List.take_sublist n _).count_le _
  have hk : threshold < m.lineSpan := of_decide_eq_true hlong
  rw [length_lines, feeds_append, opening?_eq_append hopen, feeds_append]
  omega

/-- From the line of a long method on, a text begins with it. -/
theorem isLong_of_flagged (h : m ∈ flagged x threshold s) (hsig : '}' ∉ m.signature) :
    IsLong (x.modifiers.filter (· ≠ [])) threshold (unlines (s.lines.drop m.startLine)) := by
  obtain ⟨hscan, hlong⟩ := List.mem_filter.1 h
  obtain ⟨before, t, o, k, rfl, hstart, hopen, hspan, hline, hk, hbrace⟩ :=
    exists_opening_of_mem_scan hm hscan
  rw [hline, drop_lines hstart, unlines_lines]
  exact ⟨o, k, hopen, hbrace hsig, hspan, hk ▸ of_decide_eq_true hlong⟩

end

end Declutter.Method
