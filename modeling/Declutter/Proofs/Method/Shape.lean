import Mathlib.Data.List.Basic
import Declutter.Method.Scan
import Declutter.Proofs.Text.Pieces

/-!
# The shape of a method

`Shape modifiers`: a text that begins like a method, in its parts. `opening?` reads exactly the
texts of this shape (`opening?_eq_some_iff`), if no modifier is empty, begins with a blank or has an
opening brace. Then a text has the shape in one way only, whichever modifier is tried first: the
body begins at the first brace, and the signature ends where the blanks before it begin
(`parts_unique`).
-/

namespace Declutter.Method

open Text

variable {modifiers : List Text} {s m : Text} {o : Opening}

/-- A line that begins like a method: indentation, a modifier as a whole word, the rest of the
signature up to a closing parenthesis, blanks and the body after its opening brace. -/
structure Shape (modifiers : List Text) where
  indent : Text
  modifier : Text
  parameters : Text
  gap : Text
  body : Text
  indented : ∀ c ∈ indent, isIndent c
  mem_modifiers : modifier ∈ modifiers
  ne_nil : modifier ≠ []
  edge : isWordEdge modifier.getLast? (parameters ++ [')']).head?
  inLine : ∀ c ∈ parameters, c ≠ ';' ∧ c ≠ '\n' ∧ c ≠ '{'
  blank : ∀ c ∈ gap, isBlank c

namespace Shape

/-- The signature, without its indentation. -/
def signature (y : Shape modifiers) : Text := y.modifier ++ y.parameters ++ [')']

/-- All that stands before the body's brace. -/
def head (y : Shape modifiers) : Text := y.indent ++ y.signature ++ y.gap

def text (y : Shape modifiers) : Text := y.head ++ '{' :: y.body

/-- What `opening?` reads of the shape. -/
def opening (y : Shape modifiers) : Opening := ⟨y.indent ++ y.signature, y.gap, y.body⟩

end Shape

/-! ## One way to read a shape -/

theorem not_mem_of_isBlank {a : Char} (ha : isBlank a = false) (hs : ∀ c ∈ s, isBlank c) :
    a ∉ s := by
  intro hmem
  rw [hs a hmem] at ha
  cases ha

/-- The signature ends at the last parenthesis before the first brace. -/
theorem parts_unique {t t' gap gap' body body' : Text} (ht : '{' ∉ t) (ht' : '{' ∉ t')
    (hgap : ∀ c ∈ gap, isBlank c) (hgap' : ∀ c ∈ gap', isBlank c)
    (h : t ++ ')' :: (gap ++ '{' :: body) = t' ++ ')' :: (gap' ++ '{' :: body')) :
    t = t' ∧ gap = gap' ∧ body = body' := by
  have hbrace : ∀ {t gap : Text}, '{' ∉ t → (∀ c ∈ gap, isBlank c) → '{' ∉ t ++ ')' :: gap := by
    intro t gap ht hgap
    have hg := not_mem_of_isBlank (a := '{') (by decide) hgap
    simp [ht, hg]
  have h' : (t ++ ')' :: gap) ++ '{' :: body = (t' ++ ')' :: gap') ++ '{' :: body' := by
    simpa using h
  obtain ⟨hfront, rfl⟩ := append_cons_inj (hbrace ht hgap) (hbrace ht' hgap') h'
  obtain ⟨rfl, rfl⟩ := cons_append_inj (not_mem_of_isBlank (by decide) hgap)
    (not_mem_of_isBlank (by decide) hgap') hfront
  exact ⟨rfl, rfl, rfl⟩

/-! ## What is read -/

theorem parameters?_blank {gap t : Text} {e : Char} (h : ∀ c ∈ gap, isBlank c)
    (he : e = '{' ∨ e = '\n') : parameters? (gap ++ e :: t) = none := by
  induction gap with
  | nil => rcases he with rfl | rfl <;> simp [parameters?]
  | cons c gap ih =>
    rw [List.cons_append, parameters?, ih fun a ha => h a (List.mem_cons_of_mem _ ha)]
    have hc : c ≠ ')' := by
      rintro rfl
      exact absurd (h ')' (List.mem_cons_self ..)) (by decide)
    simp [hc]

theorem parameters?_eq_some_iff : parameters? s = some o ↔ ∃ t gap body,
    s = t ++ ')' :: (gap ++ '{' :: body) ∧ (∀ c ∈ t, c ≠ ';' ∧ c ≠ '\n' ∧ c ≠ '{') ∧
      (∀ c ∈ gap, isBlank c) ∧ o = ⟨t ++ [')'], gap, body⟩ := by
  constructor
  · intro h
    induction s generalizing o with
    | nil => cases h
    | cons c s ih =>
      rw [parameters?] at h
      split at h
      · cases h
      next hc =>
      have hline : c ≠ ';' ∧ c ≠ '\n' ∧ c ≠ '{' := by simpa [not_or, and_assoc] using hc
      split at h
      · next o' ho =>
        cases h
        obtain ⟨t, gap, body, rfl, ht, hgap, rfl⟩ := ih ho
        refine ⟨c :: t, gap, body, rfl, ?_, hgap, rfl⟩
        exact List.forall_mem_cons.2 ⟨hline, ht⟩
      split at h
      · next hparen =>
        split at h
        · next body hbody =>
          cases h
          refine ⟨[], s.takeWhile isBlank, body, ?_, by simp, ?_, rfl⟩
          · rw [← hbody, List.takeWhile_append_dropWhile, eq_of_beq hparen]
            rfl
          · exact fun a ha => List.all_eq_true.1 List.all_takeWhile a ha
        · cases h
      · cases h
  · rintro ⟨t, gap, body, rfl, ht, hgap, rfl⟩
    induction t with
    | nil =>
      rw [List.nil_append, parameters?, parameters?_blank hgap (.inl rfl)]
      have hdrop : (gap ++ '{' :: body).dropWhile isBlank = '{' :: body := by
        rw [List.dropWhile_append_of_pos hgap]
        rfl
      have htake : (gap ++ '{' :: body).takeWhile isBlank = gap := by
        rw [List.takeWhile_append_of_pos hgap]
        simp [show isBlank '{' = false by decide]
      simp [hdrop, htake]
    | cons c t ih =>
      obtain ⟨hc, ht⟩ := List.forall_mem_cons.1 ht
      rw [List.cons_append, parameters?, ih ht]
      simp [hc, Opening.extend]

theorem modified?_eq_some_iff : modified? s m = some o ↔ ∃ t gap body,
    s = m ++ t ++ ')' :: (gap ++ '{' :: body) ∧ isWordEdge m.getLast? (t ++ [')']).head? ∧
      (∀ c ∈ t, c ≠ ';' ∧ c ≠ '\n' ∧ c ≠ '{') ∧ (∀ c ∈ gap, isBlank c) ∧
      o = ⟨m ++ t ++ [')'], gap, body⟩ := by
  have hhead : ∀ t gap body : Text,
      (t ++ ')' :: (gap ++ '{' :: body)).head? = (t ++ [')']).head? := by
    intro t gap body
    cases t <;> rfl
  constructor
  · intro h
    rw [modified?] at h
    split at h
    · next rest hr =>
      split at h
      · next hedge =>
        obtain ⟨o', ho, rfl⟩ := Option.map_eq_some_iff.1 h
        obtain ⟨t, gap, body, rfl, ht, hgap, rfl⟩ := parameters?_eq_some_iff.1 ho
        refine ⟨t, gap, body, ?_, ?_, ht, hgap, ?_⟩
        · rw [eq_append_of_isPrefixOf? hr, List.append_assoc]
        · rw [← hhead t gap body]
          exact hedge
        · simp [Opening.extend]
      · cases h
    · cases h
  · rintro ⟨t, gap, body, rfl, hedge, ht, hgap, rfl⟩
    have hr : m.isPrefixOf? (m ++ t ++ ')' :: (gap ++ '{' :: body)) =
        some (t ++ ')' :: (gap ++ '{' :: body)) := by
      rw [List.isPrefixOf?_eq_some_iff_append_eq, List.append_assoc]
    rw [modified?, hr]
    simp only
    rw [hhead, if_pos hedge, parameters?_eq_some_iff.2 ⟨t, gap, body, rfl, ht, hgap, rfl⟩]
    simp [Opening.extend]

theorem opening?_append {indent : Text} (hi : ∀ c ∈ indent, isIndent c)
    (h : opening? modifiers s = some o) :
    opening? modifiers (indent ++ s) = some (o.extend indent) := by
  induction indent with
  | nil => exact h
  | cons c indent ih =>
    obtain ⟨hc, hi⟩ := List.forall_mem_cons.1 hi
    rw [List.cons_append, opening?, ih hi]
    simp [hc, Opening.extend]

section
variable (hm : ∀ m ∈ modifiers, m ≠ [] ∧ '{' ∉ m ∧ ∀ c ∈ m.head?, isBlank c = false)
include hm

/-- Every modifier that fits gives the same opening. -/
theorem opening?_of_modified? (hmem : m ∈ modifiers) (h : modified? s m = some o) :
    opening? modifiers s = some o := by
  obtain ⟨t, gap, body, hs, -, ht, hgap, ho⟩ := modified?_eq_some_iff.1 h
  obtain ⟨hne, hbrace, hblank⟩ := hm m hmem
  obtain ⟨c, m', hcons⟩ := List.exists_cons_of_ne_nil hne
  obtain ⟨s', hs'⟩ : ∃ s', s = c :: s' := ⟨_, by rw [hs, hcons]; rfl⟩
  have hc : ¬ isIndent c := by
    intro hc
    have := hblank c (by rw [hcons]; rfl)
    rw [isBlank_of_isIndent hc] at this
    cases this
  rw [hs', opening?]
  simp only [hc, Bool.false_eq_true, if_false, Option.none_or, ← hs']
  cases hfind : modifiers.findSome? (modified? s) with
  | none => rw [List.findSome?_eq_none_iff.1 hfind m hmem] at h; cases h
  | some o' =>
    obtain ⟨m₁, hmem₁, h₁⟩ := List.exists_of_findSome?_eq_some hfind
    obtain ⟨t₁, gap₁, body₁, hs₁, -, ht₁, hgap₁, ho₁⟩ := modified?_eq_some_iff.1 h₁
    have hfront : ∀ {m t : Text}, '{' ∉ m → (∀ c ∈ t, c ≠ ';' ∧ c ≠ '\n' ∧ c ≠ '{') →
        '{' ∉ m ++ t := by
      intro m t hm ht hc
      rcases List.mem_append.1 hc with hc | hc
      · exact hm hc
      · exact (ht _ hc).2.2 rfl
    obtain ⟨hsig, rfl, rfl⟩ := parts_unique (hfront hbrace ht) (hfront (hm m₁ hmem₁).2.1 ht₁)
      hgap hgap₁ (hs.symm.trans hs₁)
    rw [ho, ho₁, hsig]

/-- **What `opening?` reads** is a method's shape, in the one way that there is. -/
theorem opening?_eq_some_iff :
    opening? modifiers s = some o ↔ ∃ y : Shape modifiers, s = y.text ∧ o = y.opening := by
  constructor
  · intro h
    induction s generalizing o with
    | nil => cases h
    | cons c s ih =>
      simp only [opening?, Option.or_eq_some_iff] at h
      rcases h with h | ⟨-, h⟩
      · split at h
        · next hc =>
          obtain ⟨o', ho, rfl⟩ := Option.map_eq_some_iff.1 h
          obtain ⟨y, rfl, rfl⟩ := ih ho
          exact ⟨{ y with
            indent := c :: y.indent
            indented := List.forall_mem_cons.2 ⟨hc, y.indented⟩ }, rfl, rfl⟩
        · cases h
      · obtain ⟨m, hmem, h⟩ := List.exists_of_findSome?_eq_some h
        obtain ⟨t, gap, body, hs, hedge, ht, hgap, rfl⟩ := modified?_eq_some_iff.1 h
        refine ⟨⟨[], m, t, gap, body, by simp, hmem, (hm m hmem).1, hedge, ht, hgap⟩, ?_, rfl⟩
        rw [hs]
        simp [Shape.text, Shape.head, Shape.signature]
  · rintro ⟨y, rfl, rfl⟩
    have hopen : opening? modifiers (y.signature ++ y.gap ++ '{' :: y.body) =
        some ⟨y.signature, y.gap, y.body⟩ := by
      apply opening?_of_modified? hm y.mem_modifiers
      refine modified?_eq_some_iff.2
        ⟨y.parameters, y.gap, y.body, ?_, y.edge, y.inLine, y.blank, rfl⟩
      simp [Shape.signature]
    have := opening?_append y.indented hopen
    simpa [Shape.text, Shape.head, Shape.opening, Opening.extend] using this

end

end Declutter.Method
