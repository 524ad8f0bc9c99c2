import Mathlib
import Declutter.Proofs.Method.Openings

/-!
# Bodies within bodies

`candidates x s`: all openings that `scan` comes upon, with the positions of their braces, whether or
not their bodies end. Of two of them, the body of the first ends before the second opens, or it has
the second body within it and spans more lines (`bodies_nested`). So where a method is long, the
methods around it are long as well. Nothing is asked of the modifiers.

An opening stands behind the brace of the last one, on a line of its own (`openingsFrom_pairwise`).
The rest is about braces (`Brace.close?_nested`).
-/

namespace Declutter.Method

open Text

variable {s : Text} {x : Lexicon}

/-! ## Candidates -/

/-- An opening in a text: the line it begins on, and the position of its brace. -/
structure Candidate where
  line : Nat
  brace : Nat
  opening : Opening
  deriving DecidableEq, Repr

namespace Candidate

/-- The position of the brace that closes the body. -/
def close? (y : Candidate) : Option Nat :=
  (Brace.close? Brace.ofChar 0 ('{' :: y.opening.body)).map (y.brace + ·)

/-- The method that begins there, if its body ends. -/
def span? (y : Candidate) : Option Span := y.opening.span? y.line

end Candidate

/-- The openings of a text, whether or not their bodies end. What follows a brace is the end of the
text. -/
def candidates (x : Lexicon) (s : Text) : List Candidate :=
  (openingsFrom (x.modifiers.filter (· ≠ [])) 0 true s).map fun (line, o) =>
    ⟨line, s.length - ('{' :: o.body).length, o⟩

theorem scan_eq (x : Lexicon) (s : Text) :
    scan x s = (candidates x s).filterMap Candidate.span? := by
  rw [scan, scanFrom_eq, candidates, List.filterMap_map]
  rfl

theorem drop_brace {y : Candidate} (h : y ∈ candidates x s) :
    s.drop y.brace = '{' :: y.opening.body := by
  obtain ⟨⟨line, o⟩, hmem, rfl⟩ := List.mem_map.1 h
  obtain ⟨before, t, hs, -, -, hopen, -⟩ := openingsFrom_eq_append hmem
  have hsuffix : '{' :: o.body <:+ s :=
    ⟨before ++ o.front, by rw [hs, opening?_front hopen, List.append_assoc]⟩
  exact (List.suffix_iff_eq_drop.1 hsuffix).symm

/-- A candidate opens behind another, and what stands between their braces has a line feed before
the second signature. -/
theorem candidates_pairwise (x : Lexicon) (s : Text) :
    (candidates x s).Pairwise fun y z => ∃ between,
      y.opening.body = between ++ z.opening.front ++ '{' :: z.opening.body ∧
        z.brace = y.brace + ((between ++ z.opening.front).length + 1) ∧ '\n' ∈ between := by
  rw [candidates, List.pairwise_map]
  refine (openingsFrom_pairwise ..).imp_of_mem fun {y z} hy _ hyz => ?_
  obtain ⟨-, between, hbody, hfeed⟩ := hyz
  obtain ⟨before, t, hs, -, -, hopen, -⟩ := openingsFrom_eq_append hy
  rw [opening?_front hopen] at hs
  refine ⟨between, hbody, ?_, hfeed⟩
  have hlen := congrArg List.length hs
  have hlen' := congrArg List.length hbody
  simp only [List.length_append, List.length_cons] at hlen hlen' ⊢
  omega

/-! ## One body and another -/

theorem exists_span? {o : Opening} {n : Nat} (line : Nat)
    (h : Brace.close? Brace.ofChar 0 ('{' :: o.body) = some n) :
    ∃ m, o.span? line = some m ∧ m.lineSpan = feeds (o.front ++ ('{' :: o.body).take n) := by
  refine ⟨_, by rw [Opening.span?, h, Option.map_some], ?_⟩
  show line + feeds o.front + feeds (('{' :: o.body).take n) - line = _
  rw [feeds_append]
  omega

/-- Up to the close of a body, there are more line ends from a brace before its line on than from
its signature on. -/
theorem feeds_lt_of_within {between : Text} {i j : Nat} (front body : Text)
    (hfeed : '\n' ∈ between) (hji : j ≤ i) :
    feeds (front ++ ('{' :: body).take j) <
      feeds (('{' :: (between ++ front ++ '{' :: body)).take
        ((between ++ front).length + 1 + i)) := by
  have htake : ('{' :: (between ++ front ++ '{' :: body)).take ((between ++ front).length + 1 + i) =
      '{' :: (between ++ front ++ ('{' :: body).take i) := by
    rw [Nat.add_right_comm, List.take_succ_cons, List.take_length_add_append]
  have hbrace : ∀ t : Text, feeds ('{' :: t) = feeds t := fun t => List.count_cons_of_ne (by decide)
  have hbetween : 0 < feeds between := List.count_pos_iff.2 hfeed
  have hbody : feeds (('{' :: body).take j) ≤ feeds (('{' :: body).take i) :=
    (List.take_prefix_take_left hji).sublist.count_le _
  rw [htake, hbrace, feeds_append, feeds_append, feeds_append]
  omega

/-- **Two bodies** are apart, or the second is within the first and spans fewer lines. -/
theorem nested_or_apart {y z : Candidate} {between : Text} {c : Nat}
    (hbody : y.opening.body = between ++ z.opening.front ++ '{' :: z.opening.body)
    (hbrace : z.brace = y.brace + ((between ++ z.opening.front).length + 1))
    (hfeed : '\n' ∈ between) (hclose : y.close? = some c) :
    c < z.brace ∨ ∃ d m n, z.close? = some d ∧ z.brace < d ∧ d < c ∧
      y.span? = some m ∧ z.span? = some n ∧ n.lineSpan < m.lineSpan := by
  obtain ⟨k, hk, rfl⟩ := Option.map_eq_some_iff.1 hclose
  obtain ⟨m, hm, houter⟩ := exists_span? y.line hk
  rw [hbody] at hk houter
  rcases Brace.close?_nested ofChar_opening ofChar_opening hk with hle | ⟨i, j, rfl, hj, hpos, hji⟩
  · left
    omega
  · obtain ⟨n, hn, hinner⟩ := exists_span? z.line hj
    have hlines := feeds_lt_of_within z.opening.front z.opening.body hfeed (Nat.le_of_lt hji)
    rw [feeds_append] at houter
    refine .inr ⟨z.brace + j, m, n, ?_, by omega, by omega, hm, hn, by omega⟩
    rw [Candidate.close?, hj, Option.map_some]

/-- **Bodies are nested or apart.** The methods of a text are the candidates whose bodies end. The
candidates are in the order of their braces. If the body of one ends, it ends before a later one
opens, or that one's body ends within it. Then the outer method spans more lines than the inner one,
and is long if that is. -/
theorem bodies_nested (x : Lexicon) (threshold : Nat) (s : Text) :
    scan x s = (candidates x s).filterMap Candidate.span? ∧
    (∀ y ∈ candidates x s, s.drop y.brace = '{' :: y.opening.body) ∧
    (candidates x s).Pairwise fun y z => y.brace < z.brace ∧
      ∀ c, y.close? = some c → c < z.brace ∨ ∃ d m n, z.close? = some d ∧ z.brace < d ∧ d < c ∧
        y.span? = some m ∧ z.span? = some n ∧ n.lineSpan < m.lineSpan ∧
        (n ∈ flagged x threshold s → m ∈ flagged x threshold s) := by
  refine ⟨scan_eq x s, fun y hy => drop_brace hy, ?_⟩
  refine (candidates_pairwise x s).imp_of_mem fun {y z} hy _ hyz => ?_
  obtain ⟨between, hbody, hbrace, hfeed⟩ := hyz
  refine ⟨by omega, fun c hc => ?_⟩
  rcases nested_or_apart hbody hbrace hfeed hc with hlt | ⟨d, m, n, hd, hopen, hdc, hm, hn, hlines⟩
  · exact .inl hlt
  · refine .inr ⟨d, m, n, hd, hopen, hdc, hm, hn, hlines, fun hlong => ?_⟩
    have hscan : m ∈ scan x s := by
      rw [scan_eq]
      exact List.mem_filterMap.2 ⟨y, hy, hm⟩
    have := of_decide_eq_true (List.mem_filter.1 hlong).2
    exact List.mem_filter.2 ⟨hscan, decide_eq_true (by omega)⟩

/-- A lexicon with a modifier that has a brace in it. -/
def hookLexicon : Lexicon :=
  { blockOpen := [], blockClose := [], docLine := [], lineComment := [],
    modifiers := [['m'], ['}', 'm']], keywords := [] }

/-- A method within another, and a third whose signature closes the first. -/
def hookText : Text := "m F()\x7b\n m G()\x7b\n\x7d\n\x7dm H()\x7b".toList

theorem bodies_nested_hookText : ∃ f g h,
    candidates hookLexicon hookText = [f, g, h] ∧ f.close? = some 17 ∧ 17 < h.brace ∧
    ∃ d m n, g.close? = some d ∧ g.brace < d ∧ d < 17 ∧ f.span? = some m ∧ g.span? = some n ∧
      n.lineSpan < m.lineSpan ∧
      (n ∈ flagged hookLexicon 0 hookText → m ∈ flagged hookLexicon 0 hookText) := by
  let f : Candidate := ⟨0, 5, "m F()".toList, [], hookText.drop 6⟩
  let g : Candidate := ⟨1, 13, " m G()".toList, [], hookText.drop 14⟩
  let h : Candidate := ⟨3, 23, "\x7dm H()".toList, [], []⟩
  have hall : candidates hookLexicon hookText = [f, g, h] := by cbv
  have hclose : f.close? = some 17 := by decide
  obtain ⟨-, -, hpairs⟩ := bodies_nested hookLexicon 0 hookText
  rw [hall, List.pairwise_cons] at hpairs
  have hafter := (hpairs.1 h (by simp)).2 17 hclose
  have hwithin := (hpairs.1 g (by simp)).2 17 hclose
  refine ⟨f, g, h, hall, hclose, hafter.resolve_right ?_, hwithin.resolve_left (by decide)⟩
  -- the body of the third does not end
  have hopen : h.close? = none := by decide
  simp [hopen]

end Declutter.Method
