import Declutter.Proofs.Method.Balance
import Declutter.Proofs.Method.Lines
import Declutter.Proofs.Method.Shape
import Declutter.Proofs.Text.Occurrence

/-!
# Openings and plain words

How many line ends a method spans can be read off what follows its signature (`Opening.lineSpan?`,
`span?_eq`), on whatever line the method begins. Blanks up to a line end or a brace are no opening
(`opening?_blank`).

Modifiers are taken to be plain words (`PlainWords`), as those of a language are.
-/

namespace Declutter.Method

open Text

variable {modifiers : List Text} {s m : Text} {o : Opening}

/-- Words without blanks and opening braces, none of them empty. -/
def PlainWords (modifiers : List Text) : Prop :=
  ∀ m ∈ modifiers, m ≠ [] ∧ '{' ∉ m ∧ ∀ c ∈ m, isBlank c = false

namespace PlainWords

theorem shape (h : PlainWords modifiers) :
    ∀ m ∈ modifiers, m ≠ [] ∧ '{' ∉ m ∧ ∀ c ∈ m.head?, isBlank c = false := by
  intro m hm
  obtain ⟨hne, hbrace, hblank⟩ := h m hm
  exact ⟨hne, hbrace, fun c hc => hblank c (List.mem_of_head? hc)⟩

theorem not_mem_feed (h : PlainWords modifiers) : ∀ m ∈ modifiers, '\n' ∉ m := by
  intro m hm hc
  exact absurd ((h m hm).2.2 _ hc) (by decide)

end PlainWords

/-! ## One opening -/

namespace Opening

/-- What follows the signature: the gap, and the body with its brace. -/
def tail (o : Opening) : Text := o.gap ++ '{' :: o.body

/-- How many line ends there are up to the end of the body, if it has one. -/
def lineSpan? (o : Opening) : Option Nat :=
  (Brace.close? Brace.ofChar 0 o.tail).map fun n => feeds (o.tail.take n)

end Opening

theorem ofChar_opening : Brace.ofChar '{' = some .opening := rfl

theorem ofChar_eq_none {c : Char} (hopen : c ≠ '{') (hclose : c ≠ '}') : Brace.ofChar c = none := by
  simp [Brace.ofChar, hopen, hclose]

theorem ofChar_of_isBlank {c : Char} (h : isBlank c) : Brace.ofChar c = none := by
  apply ofChar_eq_none
  · intro hc
    exact absurd (hc ▸ h) (by decide)
  · intro hc
    exact absurd (hc ▸ h) (by decide)

theorem close?_gap {gap t : Text} (hgap : ∀ c ∈ gap, isBlank c) (level : Int) :
    Brace.close? Brace.ofChar level (gap ++ t) =
      (Brace.close? Brace.ofChar level t).map (· + gap.length) := by
  obtain ⟨hnone, hzero⟩ :=
    Brace.close?_of_forall level fun c hc => ofChar_of_isBlank (hgap c hc)
  rw [Brace.close?_append_of_none hnone, hzero, Int.add_zero]

/-- The span of a method from its signature on. -/
theorem span?_eq (hgap : ∀ c ∈ o.gap, isBlank c) (hsig : '\n' ∉ o.signature) (line : Nat) :
    o.span? line = o.lineSpan?.map fun k =>
      ⟨line, line + k, o.signature.trim, shownName o.signature.trim⟩ := by
  have hfeeds : ∀ n, feeds (o.signature ++ o.gap) + feeds (('{' :: o.body).take n) =
      feeds (o.tail.take (n + o.gap.length)) := by
    intro n
    have hnone : feeds o.signature = 0 := List.count_eq_zero.2 hsig
    rw [Opening.tail, Nat.add_comm n, List.take_length_add_append, feeds_append, feeds_append, hnone,
      Nat.zero_add]
  have hclose : Brace.close? Brace.ofChar 0 o.tail =
      (Brace.close? Brace.ofChar 0 ('{' :: o.body)).map (· + o.gap.length) := close?_gap hgap 0
  rw [Opening.span?, Opening.lineSpan?, hclose, Option.map_map, Option.map_map]
  apply Option.map_congr
  intro n _
  simp only [Function.comp_apply, ← hfeeds, Nat.add_assoc]

section
variable (hm : PlainWords modifiers)
include hm

theorem isBlank_of_opening? (h : opening? modifiers s = some o) : ∀ c ∈ o.gap, isBlank c := by
  obtain ⟨y, -, rfl⟩ := (opening?_eq_some_iff hm.shape).1 h
  exact y.blank

theorem span?_of_opening? (h : opening? modifiers s = some o) (line : Nat) :
    o.span? line = o.lineSpan?.map fun k =>
      ⟨line, line + k, o.signature.trim, shownName o.signature.trim⟩ :=
  span?_eq (isBlank_of_opening? hm h) (not_mem_opening? hm.not_mem_feed h) line

theorem opening?_cons {c : Char} {t : Text} (hc : ∀ m ∈ modifiers, c ∉ m)
    (h : isIndent c → opening? modifiers t = none) : opening? modifiers (c :: t) = none := by
  have hnone : modifiers.findSome? (modified? (c :: t)) = none := by
    rw [List.findSome?_eq_none_iff]
    intro m hmem
    have hpre : m.isPrefixOf? (c :: t) = none := by
      rw [isPrefixOf?_eq_none_iff]
      intro hpre
      exact (hm m hmem).1 (List.prefix_nil.1 (isPrefix_of_append_cons (s := []) (hc m hmem) hpre))
    rw [modified?, hpre]
  rw [opening?, hnone]
  simp only [Option.or_none]
  split
  · next hindent => rw [h hindent, Option.map_none]
  · rfl

/-- Blanks up to a line end or a brace are no opening. -/
theorem opening?_blank {gap t : Text} {e : Char} (hgap : ∀ c ∈ gap, isBlank c)
    (he : e = '{' ∨ e = '\n') : opening? modifiers (gap ++ e :: t) = none := by
  induction gap with
  | nil =>
    apply opening?_cons hm
    · intro m hmem
      rcases he with rfl | rfl
      · exact (hm m hmem).2.1
      · exact hm.not_mem_feed m hmem
    · intro hindent
      rcases he with rfl | rfl <;> exact absurd hindent (by decide)
  | cons c gap ih =>
    obtain ⟨hc, hrest⟩ := List.forall_mem_cons.1 hgap
    apply opening?_cons hm
    · intro m hmem hcm
      rw [(hm m hmem).2.2 c hcm] at hc
      cases hc
    · exact fun _ => ih hrest

end

end Declutter.Method
