import Declutter.Proofs.Text.Occurrence

/-!
# Line ends

`Crlf s`: every line feed of the text comes right after a carriage return; so every line but the
last ends in one (`crlf_unlines`).

`Returned s s'`: the second text is the first with carriage returns put before some of its line
feeds. This can be read line by line (`Returned.lines`, `ReturnedLines.unlines`). A marker that has
neither character of a line end is found in the same place in both (`Returned.cut?`).
-/

namespace Declutter.Text

variable {a m s s' t t' : Text} {ls ls' : List Text}

/-! ## Answers that correspond -/

section
variable {α α' β β' : Type} {R : α → α' → Prop} {S : β → β' → Prop}

theorem rel_map {f : α → β} {f' : α' → β'} {x : Option α} {x' : Option α'} (h : Option.Rel R x x')
    (hf : ∀ a a', R a a' → S (f a) (f' a')) : Option.Rel S (x.map f) (x'.map f') := by
  cases h with
  | none => exact .none
  | some h => exact .some (hf _ _ h)

theorem rel_or {x y : Option α} {x' y' : Option α'} (hx : Option.Rel R x x')
    (hy : Option.Rel R y y') : Option.Rel R (x.or y) (x'.or y') := by
  cases hx with
  | none => exact hy
  | some h => exact .some h

theorem rel_findSome? {f : β → Option α} {f' : β → Option α'} {l : List β}
    (h : ∀ b ∈ l, Option.Rel R (f b) (f' b)) : Option.Rel R (l.findSome? f) (l.findSome? f') := by
  induction l with
  | nil => exact .none
  | cons b l ih =>
    obtain ⟨hb, hl⟩ := List.forall_mem_cons.1 h
    rw [List.findSome?_cons, List.findSome?_cons]
    generalize f b = x at hb
    generalize f' b = x' at hb
    cases hb with
    | none => exact ih hl
    | some h => exact .some h

theorem eq_none_of_rel {x' : Option α'} (h : Option.Rel R none x') : x' = none := by
  cases h
  rfl

theorem exists_of_rel {a : α} {x' : Option α'} (h : Option.Rel R (some a) x') :
    ∃ a', x' = some a' ∧ R a a' := by
  cases h with
  | some h => exact ⟨_, rfl, h⟩

end

/-! ## Texts whose lines end in a carriage return -/

/-- Every line feed comes right after a carriage return. -/
def Crlf (s : Text) : Prop :=
  ∀ before after, s = before ++ '\n' :: after → before.getLast? = some '\r'

theorem crlf_of_not_mem (h : '\n' ∉ s) : Crlf s := by
  intro before after hs
  exact absurd (by rw [hs]; simp) h

theorem crlf_append : Crlf (s ++ t) ↔
    Crlf s ∧ ∀ before after, t = before ++ '\n' :: after → (s ++ before).getLast? = some '\r' := by
  constructor
  · intro h
    constructor
    · intro before after hs
      exact h before (after ++ t) (by rw [hs]; simp)
    · intro before after ht
      exact h (s ++ before) after (by rw [ht]; simp)
  · intro ⟨hs, ht⟩ before after heq
    rcases List.append_eq_append_iff.1 heq with ⟨k, rfl, hk⟩ | ⟨k, hk, hfeed⟩
    · exact ht k after hk
    · cases k with
      | nil => simpa [hk] using ht [] after hfeed.symm
      | cons c k =>
        obtain ⟨rfl, -⟩ := List.cons.inj hfeed
        exact hs before k hk

theorem Crlf.append_iff (ht : Crlf t) : Crlf (s ++ t) ↔ Crlf s := by
  refine crlf_append.trans (and_iff_left ?_)
  intro before after heq
  have hlast := ht before after heq
  rw [List.getLast?_append, hlast, Option.some_or]

theorem crlf_append_feed :
    Crlf (s ++ '\n' :: t) ↔ Crlf s ∧ s.getLast? = some '\r' ∧ Crlf t := by
  rw [crlf_append]
  refine and_congr_right fun _ => ⟨fun h => ⟨?_, ?_⟩, ?_⟩
  · simpa using h [] t rfl
  · intro before after ht
    have hlast := h ('\n' :: before) after (by rw [ht]; rfl)
    cases before with
    | nil => simp at hlast
    | cons c before => simpa [List.getLast?_append, List.getLast?_cons] using hlast
  · intro ⟨hlast, ht⟩ before after heq
    cases before with
    | nil => simpa using hlast
    | cons c before =>
      obtain ⟨rfl, htail⟩ := List.cons.inj heq
      simp [List.getLast?_append, List.getLast?_cons, ht before after htail]

theorem crlf_append_replicate {n : Nat} : Crlf (s ++ List.replicate n '\n') ↔
    Crlf s ∧ (n = 0 ∨ n = 1 ∧ s.getLast? = some '\r') := by
  cases n with
  | zero => simp
  | succ n =>
    have hrest : Crlf (List.replicate n '\n') ↔ n = 0 := by
      cases n with
      | zero => simp [crlf_of_not_mem]
      | succ n =>
        have hnone : ¬ Crlf ([] ++ '\n' :: List.replicate n '\n') := by
          rw [crlf_append_feed]
          simp
        simpa [List.replicate_succ] using hnone
    rw [List.replicate_succ, crlf_append_feed, hrest]
    simp [and_comm]

/-- Every line but the last ends in a carriage return. -/
theorem crlf_unlines (h : ∀ l ∈ ls, '\n' ∉ l) :
    Crlf (unlines ls) ↔ ∀ l ∈ ls.dropLast, l.getLast? = some '\r' := by
  induction ls with
  | nil => simp [unlines, crlf_of_not_mem]
  | cons l ls ih =>
    obtain ⟨hl, hls⟩ := List.forall_mem_cons.1 h
    by_cases hnil : ls = []
    · subst hnil
      simpa [unlines] using crlf_of_not_mem hl
    · rw [unlines_cons l hnil, crlf_append_feed, ih hls]
      simp [crlf_of_not_mem hl, List.dropLast_cons_of_ne_nil hnil]

theorem crlf_iff_lines : Crlf s ↔ ∀ l ∈ s.lines.dropLast, l.getLast? = some '\r' := by
  rw [← crlf_unlines fun l hl => not_mem_of_mem_lines hl, unlines_lines]

/-! ## Texts with more carriage returns -/

/-- The text with a carriage return put before every line feed. -/
def withReturns (s : Text) : Text := s.flatMap fun c => if c = '\n' then ['\r', '\n'] else [c]

/-- The second text is the first with carriage returns put before some of its line feeds. -/
inductive Returned : Text → Text → Prop
  | nil : Returned [] []
  | char {c : Char} {s s' : Text} : Returned s s' → Returned (c :: s) (c :: s')
  | feed {s s' : Text} : Returned s s' → Returned ('\n' :: s) ('\r' :: '\n' :: s')

/-- The second line is the first, or has a carriage return more at its end. -/
def ReturnedLine (l l' : Text) : Prop := l' = l ∨ l' = l ++ ['\r']

/-- Lines that may have got a carriage return at their ends, except for the last. -/
inductive ReturnedLines : List Text → List Text → Prop
  | last (l : Text) : ReturnedLines [l] [l]
  | line {l l' : Text} {ls ls' : List Text} : ReturnedLine l l' → ReturnedLines ls ls' →
      ReturnedLines (l :: ls) (l' :: ls')

theorem returned_withReturns (s : Text) : Returned s s.withReturns := by
  induction s with
  | nil => exact .nil
  | cons c s ih =>
    show Returned (c :: s) ((if c = '\n' then ['\r', '\n'] else [c]) ++ withReturns s)
    split
    · next hc =>
      subst hc
      exact .feed ih
    · exact .char ih

namespace Returned

theorem refl (s : Text) : Returned s s := by
  induction s with
  | nil => exact .nil
  | cons c s ih => exact .char ih

theorem append (h : Returned s s') (ht : Returned t t') : Returned (s ++ t) (s' ++ t') := by
  induction h with
  | nil => exact ht
  | char _ ih => exact .char ih
  | feed _ ih => exact .feed ih

/-- The same line feeds are left of both. -/
theorem filter_feed (h : Returned s s') : s'.filter (· == '\n') = s.filter (· == '\n') := by
  induction h with
  | nil => rfl
  | char _ ih => simp only [List.filter_cons, ih]
  | feed _ ih => simpa [List.filter_cons] using ih

/-! ### Lines -/

theorem lines (h : Returned s s') : ReturnedLines s.lines s'.lines := by
  induction h with
  | nil => exact .last []
  | @char c s s' h ih =>
    by_cases hc : c = '\n'
    · subst hc
      rw [lines_cons_feed, lines_cons_feed]
      exact .line (.inl rfl) ih
    · obtain ⟨l, ls, hs, hcs⟩ := lines_cons hc s
      obtain ⟨l', ls', hs', hcs'⟩ := lines_cons hc s'
      rw [hs, hs'] at ih
      rw [hcs, hcs']
      cases ih with
      | last => exact .last _
      | line hl hls => exact .line (hl.imp (congrArg (c :: ·)) (congrArg (c :: ·))) hls
  | @feed s s' h ih =>
    have hs' : Text.lines ('\r' :: '\n' :: s') = ['\r'] :: s'.lines := by
      have hcr : Text.lines ['\r'] = [['\r']] := lines_of_not_mem (by decide)
      exact (lines_append_feed ['\r'] s').trans (by rw [hcr]; rfl)
    rw [hs', lines_cons_feed]
    exact .line (.inr rfl) ih

/-! ### Markers -/

section
variable (hcr : '\r' ∉ m) (hlf : '\n' ∉ m)
include hcr hlf

theorem isPrefixOf? (h : Returned s s') :
    Option.Rel Returned (m.isPrefixOf? s) (m.isPrefixOf? s') := by
  induction m generalizing s s' with
  | nil => exact .some h
  | cons a m ih =>
    simp only [List.mem_cons, not_or] at hcr hlf
    cases h with
    | nil => exact .none
    | @char c s s' h =>
      show Option.Rel Returned (if a == c then m.isPrefixOf? s else none)
        (if a == c then m.isPrefixOf? s' else none)
      split
      · exact ih hcr.2 hlf.2 h
      · exact .none
    | feed h =>
      have hl : (a == '\n') = false := by simpa using Ne.symm hlf.1
      have hr : (a == '\r') = false := by simpa using Ne.symm hcr.1
      simp only [List.isPrefixOf?, hl, hr]
      exact .none

/-- **A marker is found in the same place**, and the texts on either side of it correspond. -/
theorem cut? (hm : m ≠ []) (h : Returned s s') :
    Option.Rel (fun x x' => Returned x.1 x'.1 ∧ Returned x.2 x'.2) (Text.cut? m s)
      (Text.cut? m s') := by
  induction h with
  | nil =>
    rw [Text.cut?, if_neg hm]
    exact .none
  | @char c s s' h ih =>
    have hpre := isPrefixOf? hcr hlf (Returned.char (c := c) h)
    rw [Text.cut?, Text.cut?]
    generalize m.isPrefixOf? (c :: s) = o at hpre
    generalize m.isPrefixOf? (c :: s') = o' at hpre
    cases hpre with
    | some h => exact .some ⟨.nil, h⟩
    | none => exact rel_map ih fun _ _ h => ⟨.char h.1, h.2⟩
  | @feed s s' h ih =>
    -- no marker begins with a character of the line end
    have hnone : ∀ c : Char, c ∉ m → ∀ t : Text, Text.cut? m (c :: t) =
        (Text.cut? m t).map fun x => (c :: x.1, x.2) := by
      intro c hc t
      have hpre : m.isPrefixOf? (c :: t) = none := by
        rw [isPrefixOf?_eq_none_iff]
        intro hpre
        obtain ⟨a, m', rfl⟩ := List.exists_cons_of_ne_nil hm
        obtain ⟨rfl, -⟩ := List.cons_prefix_cons.1 hpre
        exact hc (List.mem_cons_self ..)
      rw [Text.cut?, hpre]
    rw [hnone '\n' hlf, hnone '\r' hcr, hnone '\n' hlf, Option.map_map]
    exact rel_map ih fun _ _ h => ⟨.feed h.1, h.2⟩

theorem cut?_eq_none (hm : m ≠ []) (h : Returned s s') (hcut : Text.cut? m s = none) :
    Text.cut? m s' = none := by
  have hrel := h.cut? hcr hlf hm
  rw [hcut] at hrel
  exact eq_none_of_rel hrel

theorem cut?_eq_some (hm : m ≠ []) {before rest : Text} (h : Returned s s')
    (hcut : Text.cut? m s = some (before, rest)) : ∃ before' rest',
      Text.cut? m s' = some (before', rest') ∧ Returned before before' ∧ Returned rest rest' := by
  have hrel := h.cut? hcr hlf hm
  rw [hcut] at hrel
  obtain ⟨⟨before', rest'⟩, hcut', hparts⟩ := exists_of_rel hrel
  exact ⟨before', rest', hcut', hparts⟩

end

end Returned

namespace ReturnedLines

theorem ne_nil (h : ReturnedLines ls ls') : ls ≠ [] ∧ ls' ≠ [] := by
  cases h <;> simp

theorem unlines (h : ReturnedLines ls ls') : Returned (Text.unlines ls) (Text.unlines ls') := by
  induction h with
  | last l => exact .refl _
  | @line l l' ls ls' hl h ih =>
    rw [unlines_cons l h.ne_nil.1, unlines_cons l' h.ne_nil.2]
    rcases hl with rfl | rfl
    · exact (Returned.refl _).append (.char ih)
    · rw [List.append_assoc]
      exact (Returned.refl _).append (.feed ih)

theorem map {f : Text → Text} (h : ReturnedLines ls ls')
    (hf : ∀ l ∈ ls, ReturnedLine (f l) (f (l ++ ['\r']))) :
    ReturnedLines (ls.map f) (ls'.map f) := by
  induction h with
  | last l => exact .last (f l)
  | @line l l' ls ls' hl _ ih =>
    obtain ⟨hline, hrest⟩ := List.forall_mem_cons.1 hf
    refine .line ?_ (ih hrest)
    rcases hl with rfl | rfl
    · exact .inl rfl
    · exact hline

end ReturnedLines

end Declutter.Text
