import Mathlib
import Declutter.Proofs.Method.Balance
import Declutter.Proofs.Method.Lines
import Declutter.Proofs.Method.Shape

/-!
# The methods of a text

`MethodAt modifiers s p x`: at position `p` of the text a line begins with the shape of a method,
whose body ends, and `x` tells of it. `scan_grammar` says that these are the methods that `scan`
finds, each once and in the order of their positions. None is lost because `scan` goes on after the
opening brace of a method: up to there, no other line begins like one (`MethodAt.not_within`).
-/

namespace Declutter.Method

open Text

variable {modifiers : List Text} {before s : Text} {p : Nat} {x : Span}

/-- A line that begins at position `p` has the shape of a method, and the braces of its body
balance. -/
def MethodAt (modifiers : List Text) (s : Text) (p : Nat) (x : Span) : Prop :=
  ∃ (before : Text) (y : Shape modifiers) (n : Nat),
    s = before ++ y.text ∧ before.length = p ∧ startsLine before ∧
    Brace.Closes Brace.ofChar 0 ('{' :: y.body) n ∧
    x = { startLine := feeds before
          endLine := feeds (before ++ y.head ++ ('{' :: y.body).take n)
          signature := y.signature
          name := shownName y.signature }

/-! ## One method -/

theorem trim_signature (y : Shape modifiers) (hblank : ∀ c ∈ y.modifier.head?, isBlank c = false) :
    (y.indent ++ y.signature).trim = y.signature := by
  have hstart : (y.indent ++ y.signature).trimStart = y.signature := by
    obtain ⟨c, m, hcons⟩ := List.exists_cons_of_ne_nil y.ne_nil
    have hc := hblank c (by rw [hcons]; rfl)
    rw [trimStart, List.dropWhile_append_of_pos fun c hc => isBlank_of_isIndent (y.indented c hc)]
    simp [Shape.signature, hcons, hc]
  have hend : y.signature.trimEnd = y.signature := by
    have hparen : isBlank ')' = false := by decide
    simp [trimEnd, Shape.signature, hparen]
  rw [trim, hstart, hend]

theorem span?_eq_some_iff (y : Shape modifiers)
    (hblank : ∀ c ∈ y.modifier.head?, isBlank c = false) (before : Text) :
    y.opening.span? (feeds before) = some x ↔ ∃ n,
      Brace.Closes Brace.ofChar 0 ('{' :: y.body) n ∧
      x = { startLine := feeds before
            endLine := feeds (before ++ y.head ++ ('{' :: y.body).take n)
            signature := y.signature
            name := shownName y.signature } := by
  have hlines : ∀ n, feeds before + feeds (y.opening.signature ++ y.opening.gap) +
      feeds (('{' :: y.body).take n) = feeds (before ++ y.head ++ ('{' :: y.body).take n) := by
    intro n
    rw [feeds_append (before ++ y.head), feeds_append before]
    rfl
  have htrim : y.opening.signature.trim = y.signature := trim_signature y hblank
  unfold Opening.span?
  rw [htrim, Option.map_eq_some_iff]
  simp only [← hlines, ← Brace.close?_eq_some_iff]
  exact exists_congr fun n => and_congr_right fun _ => eq_comm

theorem exists_shape_of_methodAt (h : MethodAt modifiers (before ++ s) before.length x) :
    startsLine before ∧ ∃ y : Shape modifiers, s = y.text := by
  obtain ⟨before', y, n, heq, hlen, hstart, -⟩ := h
  obtain ⟨rfl, htext⟩ := List.append_inj heq hlen.symm
  exact ⟨hstart, y, htext⟩

theorem MethodAt.lt_length (h : MethodAt modifiers s p x) : p < s.length := by
  obtain ⟨before, y, n, rfl, rfl, -⟩ := h
  simp only [Shape.text, List.length_append, List.length_cons]
  omega

theorem Shape.not_mem_feed (hfeed : ∀ m ∈ modifiers, '\n' ∉ m) (y : Shape modifiers) :
    '\n' ∉ y.indent ++ y.signature := by
  have hi : '\n' ∉ y.indent := fun hc => absurd (y.indented _ hc) (by decide)
  have hp : '\n' ∉ y.parameters := fun hc => (y.inLine _ hc).2.1 rfl
  simp [Shape.signature, hi, hp, hfeed _ y.mem_modifiers]

section
variable (hm : ∀ m ∈ modifiers, m ≠ [] ∧ '{' ∉ m ∧ ∀ c ∈ m.head?, isBlank c = false)
include hm

theorem methodAt_length (y : Shape modifiers) (hstart : startsLine before) :
    MethodAt modifiers (before ++ y.text) before.length x ↔
      y.opening.span? (feeds before) = some x := by
  constructor
  · rintro ⟨before', y', n, heq, hlen, -, hn⟩
    obtain ⟨rfl, htext⟩ := List.append_inj heq hlen.symm
    have hopen : y.opening = y'.opening := by
      have h := (opening?_eq_some_iff hm).2 ⟨y, rfl, rfl⟩
      rw [(opening?_eq_some_iff hm).2 ⟨y', htext, rfl⟩] at h
      exact (Option.some.inj h).symm
    rw [hopen]
    exact (span?_eq_some_iff y' (hm _ y'.mem_modifiers).2.2 before).2 ⟨n, hn⟩
  · intro h
    obtain ⟨n, hn⟩ := (span?_eq_some_iff y (hm _ y.mem_modifiers).2.2 before).1 h
    exact ⟨before, y, n, rfl, rfl, hstart, hn⟩

/-- After blanks, a shape does not go on with a brace. -/
theorem Shape.text_ne (y : Shape modifiers) {gap body : Text} (hgap : ∀ c ∈ gap, isBlank c) :
    y.text ≠ gap ++ '{' :: body := by
  obtain ⟨hne, hbrace, hblank⟩ := hm _ y.mem_modifiers
  obtain ⟨c, m, hcons⟩ := List.exists_cons_of_ne_nil hne
  have hc := hblank c (by rw [hcons]; rfl)
  intro heq
  have hdrop := congrArg (List.dropWhile isBlank) heq
  have hindent : ∀ c ∈ y.indent, isBlank c := fun c hc => isBlank_of_isIndent (y.indented c hc)
  rw [Shape.text, Shape.head, List.append_assoc, List.append_assoc,
    List.dropWhile_append_of_pos hindent, List.dropWhile_append_of_pos hgap, Shape.signature,
    hcons] at hdrop
  simp only [List.cons_append, List.dropWhile_cons, hc, Bool.false_eq_true, if_false,
    show isBlank '{' = false by decide] at hdrop
  obtain ⟨rfl, -⟩ := List.cons.inj hdrop
  exact hbrace (by rw [hcons]; exact List.mem_cons_self ..)

/-- No line begins like a method between the beginning of another and its brace. -/
theorem MethodAt.not_within (hfeed : ∀ m ∈ modifiers, '\n' ∉ m) (y : Shape modifiers)
    (h : MethodAt modifiers (before ++ y.text) p x) (hp : before.length < p) :
    before.length + y.head.length < p := by
  obtain ⟨before', y', n, heq, rfl, hstart, -⟩ := h
  by_contra hle
  obtain ⟨k, rfl, htext⟩ : ∃ k, before' = before ++ k ∧ y.text = k ++ y'.text := by
    rcases List.append_eq_append_iff.1 heq with h | ⟨k, rfl, -⟩
    · exact h
    · simp only [List.length_append] at hp
      omega
  obtain ⟨r, hhead, htext'⟩ : ∃ r, y.head = k ++ r ∧ y'.text = r ++ '{' :: y.body := by
    rcases List.append_eq_append_iff.1 htext with ⟨t, rfl, ht⟩ | h
    · obtain rfl : t = [] := by
        simp only [List.length_append] at hle
        exact List.eq_nil_of_length_eq_zero (by omega)
      exact ⟨[], by simp, by simpa using ht.symm⟩
    · exact h
  -- the other line begins after a line feed, and that is one of the gap
  have hk : '\n' ∈ k := by
    have hne : k ≠ [] := by
      rintro rfl
      simp at hp
    rw [startsLine, List.getLast?_append_of_ne_nil _ hne,
      List.getLast?_eq_getLast_of_ne_nil hne] at hstart
    have hlast : k.getLast hne = '\n' := by simpa using hstart
    rw [← hlast]
    exact List.getLast_mem hne
  have hblank : ∀ c ∈ r, isBlank c := by
    rcases List.append_eq_append_iff.1 hhead with ⟨g, -, hgap⟩ | ⟨g, hfront, -⟩
    · intro c hc
      exact y.blank c (by rw [hgap]; exact List.mem_append_right _ hc)
    · exact absurd (hfront ▸ List.mem_append_left g hk) (y.not_mem_feed hfeed)
  exact y'.text_ne hm hblank htext'

end

/-! ## All methods from a position on -/

/-- The methods that begin at position `lo` or after it, each with its position, in order. -/
def Located (modifiers : List Text) (s : Text) (lo : Nat) (l : List (Nat × Span)) : Prop :=
  l.Pairwise (·.1 < ·.1) ∧ ∀ p x, (p, x) ∈ l ↔ lo ≤ p ∧ MethodAt modifiers s p x

theorem Located.step {lo hi : Nat} {l : List (Nat × Span)} (h : Located modifiers s hi l)
    (here : Option Span) (hlt : lo < hi)
    (hhere : ∀ x, MethodAt modifiers s lo x ↔ here = some x)
    (hskip : ∀ p x, MethodAt modifiers s p x → lo < p → hi ≤ p) :
    Located modifiers s lo ((here.map (lo, ·)).toList ++ l) := by
  obtain ⟨hsorted, hmem⟩ := h
  have hfirst : ∀ p x, (p, x) ∈ (here.map (lo, ·)).toList ↔ p = lo ∧ MethodAt modifiers s p x := by
    intro p x
    simp only [Option.mem_toList, Option.map_eq_some_iff, Prod.mk.injEq]
    constructor
    · rintro ⟨x, hx, rfl, rfl⟩
      exact ⟨rfl, (hhere x).2 hx⟩
    · rintro ⟨rfl, hx⟩
      exact ⟨x, (hhere x).1 hx, rfl, rfl⟩
  constructor
  · refine List.pairwise_append.2 ⟨?_, hsorted, ?_⟩
    · cases here <;> simp
    · rintro ⟨p, x⟩ hp ⟨q, y⟩ hq
      obtain ⟨rfl, -⟩ := (hfirst p x).1 hp
      obtain ⟨hle, -⟩ := (hmem q y).1 hq
      exact Nat.lt_of_lt_of_le hlt hle
  · intro p x
    rw [List.mem_append, hfirst, hmem]
    constructor
    · rintro (⟨rfl, hx⟩ | ⟨hle, hx⟩)
      · exact ⟨Nat.le_refl _, hx⟩
      · exact ⟨by omega, hx⟩
    · rintro ⟨hle, hx⟩
      rcases Nat.eq_or_lt_of_le hle with rfl | hlt
      · exact .inl ⟨rfl, hx⟩
      · exact .inr ⟨hskip p x hx hlt, hx⟩

theorem Located.unique {lo : Nat} {l l' : List (Nat × Span)} (h : Located modifiers s lo l)
    (h' : Located modifiers s lo l') : l = l' := by
  have hmem : ∀ a, a ∈ l ↔ a ∈ l' := fun ⟨p, x⟩ => (h.2 p x).trans (h'.2 p x).symm
  have : Std.Irrefl fun a b : Nat × Span => a.1 < b.1 := ⟨fun a => Nat.lt_irrefl a.1⟩
  have : Std.Antisymm fun a b : Nat × Span => a.1 < b.1 :=
    ⟨fun a b h h' => absurd h (Nat.lt_asymm h')⟩
  exact h.1.eq_of_mem_iff h'.1 hmem

/-- `scanFrom` finds them all, whatever was read before. -/
theorem exists_located_scanFrom
    (hm : ∀ m ∈ modifiers, m ≠ [] ∧ '{' ∉ m ∧ ∀ c ∈ m.head?, isBlank c = false)
    (hfeed : ∀ m ∈ modifiers, '\n' ∉ m) (before s : Text) :
    ∃ l, l.map (·.2) = scanFrom modifiers (feeds before) (startsLine before) s ∧
      Located modifiers (before ++ s) before.length l := by
  generalize hline : feeds before = line
  generalize hfresh : startsLine before = fresh
  fun_induction scanFrom modifiers line fresh s generalizing before with
  | case1 =>
    refine ⟨[], rfl, .nil, fun p x => ?_⟩
    have hnone : before.length ≤ p → ¬ MethodAt modifiers before p x := by
      intro hle hx
      have hlt := hx.lt_length
      omega
    simpa using hnone
  | case2 line fresh c s o h ih =>
    rw [dite_eq_ite, Option.ite_none_right_eq_some] at h
    obtain ⟨rfl, hopen⟩ := h
    obtain ⟨y, htext, rfl⟩ := (opening?_eq_some_iff hm).1 hopen
    obtain ⟨l, hl, hloc⟩ := ih (before ++ y.opening.head) (by rw [feeds_append, hline])
      (by simp [startsLine, Opening.head])
    have hrest : before ++ c :: s = before ++ y.opening.head ++ y.opening.body := by
      rw [List.append_assoc, opening?_eq_some hopen]
    rw [← hrest] at hloc
    refine ⟨((y.opening.span? line).map (before.length, ·)).toList ++ l, ?_, hloc.step _ ?_ ?_ ?_⟩
    · cases y.opening.span? line <;> simp [hl]
    · simp [Opening.head]
    · intro x
      rw [htext, ← hline]
      exact methodAt_length hm y hfresh
    · intro p x hx hlt
      rw [htext] at hx
      have hpast := hx.not_within hm hfeed y hlt
      simp only [Opening.head, Shape.opening, List.length_append, List.length_singleton]
      simp only [Shape.head, List.length_append] at hpast
      omega
  | case3 line fresh c s h ih =>
    obtain ⟨l, hl, hloc⟩ := ih (before ++ [c])
      (by by_cases hc : c = '\n' <;> simp [feeds, ← hline, hc]) (by simp [startsLine])
    rw [List.append_assoc, List.singleton_append] at hloc
    refine ⟨l, hl, (hloc.step none ?_ ?_ ?_ :)⟩
    · simp
    · intro x
      simp only [reduceCtorEq, iff_false]
      intro hx
      obtain ⟨hstart, y, htext⟩ := exists_shape_of_methodAt hx
      rw [hfresh] at hstart
      rw [dif_pos hstart, (opening?_eq_some_iff hm).2 ⟨y, htext, rfl⟩] at h
      cases h
    · intro p x _ hlt
      simpa using hlt

/-! ## All methods -/

section
variable {modifiers' : List Text}

theorem MethodAt.mono (hsub : ∀ m, m ≠ [] → m ∈ modifiers → m ∈ modifiers')
    (h : MethodAt modifiers s p x) : MethodAt modifiers' s p x := by
  obtain ⟨before, y, n, hs, hp, hstart, hclose, hx⟩ := h
  exact ⟨before, { y with mem_modifiers := hsub _ y.ne_nil y.mem_modifiers }, n, hs, hp, hstart,
    hclose, hx⟩

theorem Located.congr {lo : Nat} {l : List (Nat × Span)} (h : Located modifiers s lo l)
    (hsame : ∀ m, m ≠ [] → (m ∈ modifiers ↔ m ∈ modifiers')) : Located modifiers' s lo l := by
  refine ⟨h.1, fun p x => (h.2 p x).trans (and_congr_right fun _ => ⟨?_, ?_⟩)⟩
  · exact MethodAt.mono fun m hne => (hsame m hne).1
  · exact MethodAt.mono fun m hne => (hsame m hne).2

end

theorem exists_located_scan (x : Lexicon)
    (hm : ∀ m ∈ x.modifiers, m ≠ [] → '{' ∉ m ∧ '\n' ∉ m ∧ ∀ c ∈ m.head?, isBlank c = false)
    (s : Text) : ∃ l, l.map (·.2) = scan x s ∧ Located x.modifiers s 0 l := by
  have hmem : ∀ m, m ∈ x.modifiers.filter (· ≠ []) ↔ m ∈ x.modifiers ∧ m ≠ [] := by simp
  obtain ⟨l, hl, hloc⟩ := exists_located_scanFrom
    (fun m h => by
      obtain ⟨h, hne⟩ := (hmem m).1 h
      exact ⟨hne, (hm m h hne).1, (hm m h hne).2.2⟩)
    (fun m h => by
      obtain ⟨h, hne⟩ := (hmem m).1 h
      exact (hm m h hne).2.1) [] s
  exact ⟨l, hl, hloc.congr fun m hne => (hmem m).trans (and_iff_left hne)⟩

/-- If no modifier begins with a blank or has a brace or a line feed, `scan` finds exactly the
methods of a text, once each, in the order of their positions, and the order of the modifiers does
not matter. -/
theorem scan_grammar (x : Lexicon)
    (hm : ∀ m ∈ x.modifiers, m ≠ [] → '{' ∉ m ∧ '\n' ∉ m ∧ ∀ c ∈ m.head?, isBlank c = false)
    (s : Text) :
    (∃ l : List (Nat × Span), l.map (·.2) = scan x s ∧ l.Pairwise (·.1 < ·.1) ∧
      ∀ p y, (p, y) ∈ l ↔ MethodAt x.modifiers s p y) ∧
    ∀ x' : Lexicon, (∀ m, m ≠ [] → (m ∈ x'.modifiers ↔ m ∈ x.modifiers)) → scan x' s = scan x s := by
  obtain ⟨l, hl, hloc⟩ := exists_located_scan x hm s
  refine ⟨⟨l, hl, hloc.1, fun p y => by simpa using hloc.2 p y⟩, fun x' hsame => ?_⟩
  obtain ⟨l', hl', hloc'⟩ := exists_located_scan x'
    (fun m h hne => hm m ((hsame m hne).1 h) hne) s
  rw [← hl, ← hl', (hloc'.congr hsame).unique hloc]

/-- A method whose brace stands on a line of its own, another within it, and a third that does not
end. -/
def nestedText : Text := "public A()\n\x7b\n  static B() \x7b\x7d\n\x7d\nnew C() \x7b".toList

theorem scan_nestedText :
    scan .csharp nestedText =
      [⟨0, 3, "public A()".toList, "A".toList⟩, ⟨2, 2, "static B()".toList, "B".toList⟩] ∧
    (∃ l : List (Nat × Span), l.map (·.2) = scan .csharp nestedText ∧ l.Pairwise (·.1 < ·.1) ∧
      ∀ p y, (p, y) ∈ l ↔ MethodAt Lexicon.csharp.modifiers nestedText p y) ∧
    scan { Lexicon.csharp with modifiers := Lexicon.csharp.modifiers.reverse } nestedText =
      scan .csharp nestedText := by
  have h := scan_grammar .csharp (by simp [Lexicon.csharp, isBlank]) nestedText
  exact ⟨by cbv, h.1, h.2 _ (by simp)⟩

end Declutter.Method
