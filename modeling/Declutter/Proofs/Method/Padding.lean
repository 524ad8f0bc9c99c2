import Mathlib
import Declutter.Proofs.Method.Nesting
import Declutter.Proofs.Text.LineEnds
import Declutter.Proofs.Text.Words

/-!
# Blanks before line ends

`Padded P s s'`: the second text is the first with blanks put before some of its line feeds, where
`P` allows it. Blank lines are put in this way, and carriage returns. The openings of both texts
correspond, with the same signatures (`Padded.openingsFrom`).

If no line feed is put in, the methods are the same (`scan_of_returned`). If line feeds are put
in only above long methods, the long methods are the same (`flagged_of_padded`): a short method has
no long one in its body, so its body gets no line more.
-/

namespace Declutter.Method

open Text

variable {modifiers : List Text} {P : Text → Text → Prop} {s s' m w t : Text} {o o' : Opening}

/-- The second text is the first with blanks put before some of its line feeds: `w` only where
`P w t` holds of the text `t` after the line feed. -/
inductive Padded (P : Text → Text → Prop) : Text → Text → Prop
  | nil : Padded P [] []
  | char {c : Char} {s s' : Text} : Padded P s s' → Padded P (c :: s) (c :: s')
  | feed {w s s' : Text} : (∀ c ∈ w, isBlank c) → P w s → Padded P s s' →
      Padded P ('\n' :: s) (w ++ '\n' :: s')

/-- Openings with the same signature, and with padded texts after it. -/
structure PaddedOpening (P : Text → Text → Prop) (o o' : Opening) : Prop where
  signature : o'.signature = o.signature
  tail : Padded P o.tail o'.tail
  body : Padded P o.body o'.body

theorem PaddedOpening.extend (h : PaddedOpening P o o') (front : Text) :
    PaddedOpening P (o.extend front) (o'.extend front) :=
  ⟨congrArg (front ++ ·) h.signature, h.tail, h.body⟩

/-- A line feed is put in before position `n`. -/
def PaddedBefore (P : Text → Text → Prop) (s : Text) (n : Nat) : Prop :=
  ∃ a w t, s = a ++ '\n' :: t ∧ a.length < n ∧ P w t ∧ '\n' ∈ w

theorem PaddedBefore.cons (c : Char) {n : Nat} (h : PaddedBefore P s n) :
    PaddedBefore P (c :: s) (n + 1) := by
  obtain ⟨a, w, t, hs, hlt, hP, hmem⟩ := h
  exact ⟨c :: a, w, t, congrArg (c :: ·) hs, Nat.succ_lt_succ hlt, hP, hmem⟩

namespace Padded

theorem refl (s : Text) : Padded P s s := by
  induction s with
  | nil => exact .nil
  | cons c s ih => exact .char ih

theorem append_left (u : Text) (h : Padded P s s') : Padded P (u ++ s) (u ++ s') := by
  induction u with
  | nil => exact h
  | cons c u ih => exact .char ih

theorem dropBlank (h : Padded P s s') : Padded P (s.dropWhile isBlank) (s'.dropWhile isBlank) := by
  induction h with
  | nil => exact .nil
  | @char c s s' h ih =>
    rw [List.dropWhile_cons, List.dropWhile_cons]
    split
    · exact ih
    · exact .char h
  | feed hw _ _ ih =>
    rw [List.dropWhile_append_of_pos hw]
    exact ih

theorem any_head? (h : Padded P s s') : s'.head?.any isWord = s.head?.any isWord := by
  cases h with
  | nil => rfl
  | char => rfl
  | @feed w s s' hw =>
    have hfeed : isWord '\n' = false := by decide
    cases w with
    | nil => rfl
    | cons c w =>
      have hc := not_isWord_of_isBlank (hw c (List.mem_cons_self ..))
      simp [hc, hfeed]

theorem isPrefixOf? (hm : ∀ c ∈ m, isBlank c = false) (h : Padded P s s') :
    Option.Rel (Padded P) (m.isPrefixOf? s) (m.isPrefixOf? s') := by
  induction m generalizing s s' with
  | nil => exact .some h
  | cons a m ih =>
    obtain ⟨ha, hm⟩ := List.forall_mem_cons.1 hm
    cases h with
    | nil => exact .none
    | @char c s s' h =>
      show Option.Rel (Padded P) (if a == c then m.isPrefixOf? s else none)
        (if a == c then m.isPrefixOf? s' else none)
      split
      · exact ih hm h
      · exact .none
    | @feed w s s' hw =>
      have hblank : ∀ {c : Char} {t : Text}, isBlank c → (a :: m).isPrefixOf? (c :: t) = none := by
        intro c t hc
        rw [isPrefixOf?_eq_none_iff, List.cons_prefix_cons]
        intro ⟨heq, _⟩
        rw [heq, hc] at ha
        cases ha
      have hleft : (a :: m).isPrefixOf? ('\n' :: s) = none := hblank (by decide)
      have hright : (a :: m).isPrefixOf? (w ++ '\n' :: s') = none := by
        cases w with
        | nil => exact hblank (by decide)
        | cons c w => exact hblank (hw c (List.mem_cons_self ..))
      rw [hleft, hright]
      exact .none

theorem parameters? (h : Padded P s s') :
    Option.Rel (PaddedOpening P) (Method.parameters? s) (Method.parameters? s') := by
  induction h with
  | nil => exact .none
  | @char c s s' h ih =>
    rw [Method.parameters?, Method.parameters?]
    split
    · exact .none
    generalize Method.parameters? s = x at ih
    generalize Method.parameters? s' = x' at ih
    cases ih with
    | some ho => exact .some (ho.extend [c])
    | none =>
      simp only
      split
      · have hdrop := h.dropBlank
        have hs := List.takeWhile_append_dropWhile (p := isBlank) (l := s)
        have hs' := List.takeWhile_append_dropWhile (p := isBlank) (l := s')
        have hnot := List.head?_dropWhile_not isBlank s
        generalize s.dropWhile isBlank = d at *
        generalize s'.dropWhile isBlank = d' at *
        cases hdrop with
        | nil => exact .none
        | @char e d d' hd =>
          by_cases he : e = '{'
          · subst he
            refine .some ⟨rfl, ?_, hd⟩
            show Padded P (s.takeWhile isBlank ++ '{' :: d) (s'.takeWhile isBlank ++ '{' :: d')
            rwa [hs, hs']
          · split
            · next heq => exact absurd (List.cons.inj heq).1 he
            split
            · next heq => exact absurd (List.cons.inj heq).1 he
            · exact .none
        | feed =>
          have hfeed : isBlank '\n' = false := hnot
          exact absurd hfeed (by decide)
      · exact .none
  | @feed w s s' hw =>
    have hleft : Method.parameters? ([] ++ '\n' :: s) = none :=
      parameters?_blank (by simp) (.inr rfl)
    rw [List.nil_append] at hleft
    rw [hleft, parameters?_blank hw (.inr rfl)]
    exact .none

theorem modified? (hm : ∀ c ∈ m, isBlank c = false) (h : Padded P s s') :
    Option.Rel (PaddedOpening P) (Method.modified? s m) (Method.modified? s' m) := by
  have hpre := h.isPrefixOf? hm
  rw [Method.modified?, Method.modified?]
  generalize m.isPrefixOf? s = x at hpre
  generalize m.isPrefixOf? s' = x' at hpre
  cases hpre with
  | none => exact .none
  | @some r r' hr =>
    have hedge : isWordEdge m.getLast? r'.head? = isWordEdge m.getLast? r.head? := by
      rw [isWordEdge, isWordEdge, hr.any_head?]
    simp only [hedge]
    by_cases hword : isWordEdge m.getLast? r.head?
    · rw [if_pos hword, if_pos hword]
      exact rel_map hr.parameters? fun _ _ ho => ho.extend m
    · rw [if_neg hword, if_neg hword]
      exact .none

/-- **Padding keeps openings**: the lines that begin like methods do so in both texts. -/
theorem opening? (hm : PlainWords modifiers) (h : Padded P s s') :
    Option.Rel (PaddedOpening P) (Method.opening? modifiers s) (Method.opening? modifiers s') := by
  induction h with
  | nil => exact .none
  | @char c s s' h ih =>
    rw [Method.opening?, Method.opening?]
    apply rel_or
    · split
      · exact rel_map ih fun _ _ ho => ho.extend [c]
      · exact .none
    · apply rel_findSome?
      intro m hmem
      exact modified? (hm m hmem).2.2 (.char h)
  | @feed w s s' hw =>
    have hleft : Method.opening? modifiers ([] ++ '\n' :: s) = none :=
      opening?_blank hm (by simp) (.inr rfl)
    rw [List.nil_append] at hleft
    rw [hleft, opening?_blank hm hw (.inr rfl)]
    exact .none

/-- The bodies end in both texts or in neither, and the padded one has no fewer line feeds before
its end. It has more only if one is put in before it. -/
theorem close? (h : Padded P s s') (level : Int) :
    Option.Rel (fun n n' => feeds (s.take n) ≤ feeds (s'.take n') ∧
        (feeds (s'.take n') = feeds (s.take n) ∨ PaddedBefore P s n))
      (Brace.close? Brace.ofChar level s) (Brace.close? Brace.ofChar level s') := by
  induction h generalizing level with
  | nil => exact .none
  | @char c s s' h ih =>
    rw [Brace.close?_cons, Brace.close?_cons]
    split
    · exact .some ⟨Nat.le_refl _, .inl rfl⟩
    · have hfeeds : ∀ (t : Text) (n : Nat),
          feeds ((c :: t).take (n + 1)) = feeds [c] + feeds (t.take n) :=
        fun t n => feeds_append [c] (t.take n)
      apply rel_map (ih (level + Brace.weight (Brace.ofChar c)))
      intro n n' hn
      refine ⟨?_, hn.2.imp ?_ (PaddedBefore.cons c)⟩
      · rw [hfeeds, hfeeds]
        exact Nat.add_le_add_left hn.1 _
      · intro heq
        rw [hfeeds, hfeeds, heq]
  | @feed w s s' hw hP h ih =>
    have hfeed : ∀ t, Brace.close? Brace.ofChar level (['\n'] ++ t) =
        (Brace.close? Brace.ofChar level t).map (· + 1) :=
      fun t => close?_gap (by simp [isBlank]) level
    simp only [List.singleton_append] at hfeed
    rw [close?_gap hw, hfeed, hfeed, Option.map_map]
    apply rel_map (ih level)
    intro n n' hn
    have hleft : feeds (('\n' :: s).take (n + 1)) = feeds (s.take n) + 1 := List.count_cons_self
    have hright : feeds ((w ++ '\n' :: s').take (n' + 1 + w.length)) =
        feeds w + (feeds (s'.take n') + 1) := by
      rw [Nat.add_comm, List.take_length_add_append, feeds_append]
      exact congrArg _ List.count_cons_self
    rw [hleft, Function.comp_apply, hright]
    refine ⟨by omega, ?_⟩
    by_cases hmem : '\n' ∈ w
    · exact .inr ⟨[], w, s, rfl, Nat.succ_pos n, hP, hmem⟩
    · have hzero : feeds w = 0 := List.count_eq_zero.2 hmem
      refine hn.2.imp ?_ (PaddedBefore.cons '\n')
      omega

/-- Without line feeds among the blanks, there are as many as before. -/
theorem feeds_eq (hP : ∀ w t, P w t → '\n' ∉ w) (h : Padded P s s') : feeds s' = feeds s := by
  induction h with
  | nil => rfl
  | @char c s s' _ ih => exact (feeds_append [c] s').trans (by rw [ih, ← feeds_append]; rfl)
  | @feed w s s' _ hw _ ih =>
    have hzero : feeds w = 0 := List.count_eq_zero.2 (hP w s hw)
    rw [feeds_append, hzero, Nat.zero_add]
    exact (feeds_append ['\n'] s').trans (by rw [ih, ← feeds_append]; rfl)

end Padded

/-- Blanks before a line feed have no openings. -/
theorem openingsFrom_blank (hm : PlainWords modifiers) (hw : ∀ c ∈ w, isBlank c) (line : Nat)
    (fresh : Bool) :
    openingsFrom modifiers line fresh (w ++ '\n' :: t) =
      openingsFrom modifiers (line + feeds w + 1) true t := by
  induction w generalizing line fresh with
  | nil =>
    rw [List.nil_append, openingsFrom_of_none fun _ => opening?_blank hm hw (.inr rfl)]
    rfl
  | cons c w ih =>
    have hnone := opening?_blank hm (t := t) hw (.inr rfl)
    obtain ⟨hc, hrest⟩ := List.forall_mem_cons.1 hw
    rw [List.cons_append] at hnone ⊢
    rw [openingsFrom_of_none fun _ => hnone, ih hrest]
    have hfeeds : feeds (c :: w) = feeds [c] + feeds w := feeds_append [c] w
    by_cases hfeed : c = '\n'
    · have hone : feeds [c] = 1 := by rw [hfeed]; rfl
      rw [if_pos (by simpa using hfeed), hfeeds, hone]
      congr 1
      omega
    · have hzero : feeds [c] = 0 := List.count_eq_zero.2 (by simpa [eq_comm] using hfeed)
      rw [if_neg (by simpa using hfeed), hfeeds, hzero, Nat.zero_add]

/-- Openings that correspond, each with its line, in texts that begin on `line` and `line'`. If no
line feed is put in, both are as far down. -/
structure PaddedSite (modifiers : List Text) (P : Text → Text → Prop) (line line' : Nat)
    (x x' : Nat × Opening) : Prop where
  opens : ∃ r, opening? modifiers r = some x.2
  opens' : ∃ r, opening? modifiers r = some x'.2
  padded : PaddedOpening P x.2 x'.2
  line_eq : (∀ w t, P w t → '\n' ∉ w) → x'.1 + line = x.1 + line'

theorem PaddedSite.shift {k k' line line' : Nat} {x x' : Nat × Opening}
    (h : PaddedSite modifiers P k k' x x')
    (hk : (∀ w t, P w t → '\n' ∉ w) → k' + line = k + line') :
    PaddedSite modifiers P line line' x x' := by
  refine ⟨h.opens, h.opens', h.padded, fun hP => ?_⟩
  have := h.line_eq hP
  have := hk hP
  omega

/-- **The openings of padded texts** correspond one by one. -/
theorem Padded.openingsFrom (hm : PlainWords modifiers) (h : Padded P s s') (line line' : Nat)
    (fresh : Bool) :
    List.Forall₂ (PaddedSite modifiers P line line') (Method.openingsFrom modifiers line fresh s)
      (Method.openingsFrom modifiers line' fresh s') := by
  fun_induction Method.openingsFrom modifiers line fresh s generalizing s' line' with
  | case1 line fresh =>
    cases h
    rw [Method.openingsFrom]
    exact .nil
  | case2 line fresh c s o hopen ih =>
    rw [dite_eq_ite, Option.ite_none_right_eq_some] at hopen
    obtain ⟨rfl, hopen⟩ := hopen
    have hrel := h.opening? hm
    rw [hopen] at hrel
    obtain ⟨o', hopen', ho⟩ := exists_of_rel hrel
    rw [openingsFrom_of_some hopen']
    refine .cons ⟨⟨_, hopen⟩, ⟨_, hopen'⟩, ho, fun _ => Nat.add_comm ..⟩ ?_
    refine (ih ho.body (line' + feeds o'.head)).imp fun x x' hx => hx.shift fun hP => ?_
    have hall := h.feeds_eq hP
    have hbody := ho.body.feeds_eq hP
    rw [opening?_eq_some hopen, opening?_eq_some hopen', feeds_append, feeds_append] at hall
    omega
  | case3 line fresh c s hopen ih =>
    simp only [dite_eq_ite] at hopen ih
    cases h with
    | @char _ _ s' h =>
      have hnone : fresh → Method.opening? modifiers (c :: s') = none := by
        intro hfresh
        have hrel := (Padded.char (c := c) h).opening? hm
        rw [if_pos hfresh] at hopen
        rw [hopen] at hrel
        exact eq_none_of_rel hrel
      rw [openingsFrom_of_none hnone]
      refine (ih h _).imp fun x x' hx => hx.shift fun _ => ?_
      split <;> omega
    | @feed w _ s' hw hw' h =>
      rw [openingsFrom_blank hm hw]
      refine (ih h _).imp fun x x' hx => hx.shift fun hP => ?_
      have hzero : feeds w = 0 := List.count_eq_zero.2 (hP w s hw')
      rw [if_pos (by decide)]
      omega

/-! ## Methods of padded texts -/

theorem filterMap_eq_of_forall₂ {α β : Type} {f g : α → Option β} {l u : List α}
    (h : List.Forall₂ (fun a b => g b = f a) l u) : u.filterMap g = l.filterMap f := by
  induction h with
  | nil => rfl
  | cons hab _ ih => rw [List.filterMap_cons, List.filterMap_cons, hab, ih]

theorem padded_of_returned (h : Returned s s') : Padded (fun w _ => w = ['\r']) s s' := by
  induction h with
  | nil => exact .nil
  | char _ ih => exact .char ih
  | feed _ ih => exact .feed (w := ['\r']) (by simp [isBlank]) rfl ih

/-- **Carriage returns make no difference to methods.** -/
theorem scan_of_returned {x : Lexicon} (hm : PlainWords (x.modifiers.filter (· ≠ [])))
    (h : Returned s s') : scan x s' = scan x s := by
  have hfree : ∀ w t : Text, w = ['\r'] → '\n' ∉ w := by
    intro w _ hw
    rw [hw]
    decide
  rw [scan, scan, scanFrom_eq, scanFrom_eq]
  apply filterMap_eq_of_forall₂
  refine ((padded_of_returned h).openingsFrom hm 0 0 true).imp ?_
  intro y y' hsite
  have hline : y'.1 = y.1 := hsite.line_eq hfree
  have ho := hsite.padded
  obtain ⟨r, hr⟩ := hsite.opens
  obtain ⟨r', hr'⟩ := hsite.opens'
  have hspan : y'.2.lineSpan? = y.2.lineSpan? := by
    have hclose := ho.tail.close? 0
    unfold Opening.lineSpan?
    generalize Brace.close? Brace.ofChar 0 y.2.tail = n at hclose
    generalize Brace.close? Brace.ofChar 0 y'.2.tail = n' at hclose
    cases hclose with
    | none => rfl
    | some hn =>
      rcases hn.2 with heq | ⟨a, w, t, -, -, hw, hmem⟩
      · exact congrArg some heq
      · exact absurd hmem (hfree w t hw)
  rw [span?_of_opening? hm hr, span?_of_opening? hm hr', hspan, hline, ho.signature]

/-- The signatures and names of the long methods of a text that begins on `line`. -/
def longNames (modifiers : List Text) (threshold line : Nat) (s : Text) : List (Text × Text) :=
  ((scanFrom modifiers line true s).filter fun m => threshold < m.lineSpan).map fun m =>
    (m.signature, m.name)

/-- What `longNames` has for an opening, if anything. -/
def Opening.longName? (o : Opening) (threshold : Nat) : Option (Text × Text) :=
  (o.lineSpan?.filter (threshold < ·)).map fun _ =>
    (o.signature.trim, shownName o.signature.trim)

section
variable {threshold : Nat} (hm : PlainWords modifiers)
include hm

theorem longName?_of_opening? (h : Method.opening? modifiers s = some o) (line : Nat) :
    ((o.span? line).filter fun m => threshold < m.lineSpan).map (fun m => (m.signature, m.name)) =
      o.longName? threshold := by
  rw [span?_of_opening? hm h, Opening.longName?]
  cases o.lineSpan? with
  | none => rfl
  | some k =>
    have hspan : line + k - line = k := Nat.add_sub_cancel_left ..
    by_cases hk : threshold < k <;> simp [Option.filter_some, Span.lineSpan, hspan, hk]

/-- A short method has no long one in its body, where a line would be put in. -/
theorem longName?_of_padded (hP : ∀ w t, P w t → IsLong modifiers threshold t)
    (h : Method.opening? modifiers s = some o) (ho : PaddedOpening P o o') :
    o'.longName? threshold = o.longName? threshold := by
  have hclose := ho.tail.close? 0
  unfold Opening.longName? Opening.lineSpan?
  rw [ho.signature]
  generalize hn : Brace.close? Brace.ofChar 0 o.tail = x at hclose
  generalize Brace.close? Brace.ofChar 0 o'.tail = x' at hclose
  cases hclose with
  | none => rfl
  | @some n n' hspan =>
    obtain ⟨hle, hsame⟩ := hspan
    have hlong : threshold < feeds (o'.tail.take n') ↔ threshold < feeds (o.tail.take n) := by
      rcases hsame with heq | ⟨a, w, t, hsplit, hlt, hw, -⟩
      · rw [heq]
      · have := lt_of_isLong hm h hn hsplit hlt (hP w t hw)
        omega
    simp [Option.filter_some, hlong]

theorem longNames_of_padded (hP : ∀ w t, P w t → IsLong modifiers threshold t)
    (h : Padded P s s') (line line' : Nat) :
    longNames modifiers threshold line' s' = longNames modifiers threshold line s := by
  simp only [longNames, scanFrom_eq, List.filter_filterMap, List.map_filterMap]
  apply filterMap_eq_of_forall₂
  refine (h.openingsFrom hm line line' true).imp ?_
  intro y y' hsite
  obtain ⟨r, hr⟩ := hsite.opens
  obtain ⟨r', hr'⟩ := hsite.opens'
  rw [longName?_of_opening? hm hr, longName?_of_opening? hm hr',
    longName?_of_padded hm hP hr hsite.padded]

theorem longNames_feed (line line' : Nat) (s : Text) :
    longNames modifiers threshold line' ('\n' :: s) = longNames modifiers threshold line s := by
  have hscan : scanFrom modifiers line' true ('\n' :: s) = scanFrom modifiers (line' + 1) true s := by
    have hblank : openingsFrom modifiers line' true ([] ++ '\n' :: s) = _ :=
      openingsFrom_blank hm (by simp) line' true
    rw [scanFrom_eq, scanFrom_eq, ← List.nil_append ('\n' :: s), hblank]
    rfl
  rw [longNames, hscan]
  exact longNames_of_padded hm (P := fun _ _ => False) (fun _ _ hf => hf.elim) (.refl s) line _

end

/-- **Blank lines above long methods** make no difference to which methods are long. -/
theorem flagged_of_padded {x : Lexicon} {threshold : Nat}
    (hm : PlainWords (x.modifiers.filter (· ≠ [])))
    (hP : ∀ w t, P w t → IsLong (x.modifiers.filter (· ≠ [])) threshold t)
    (h : Padded P ('\n' :: s) ('\n' :: s')) :
    (flagged x threshold s').map (fun m => (m.signature, m.name)) =
      (flagged x threshold s).map (fun m => (m.signature, m.name)) := by
  have hlong := longNames_of_padded hm hP h 0 0
  rw [longNames_feed hm 0, longNames_feed hm 0] at hlong
  exact hlong

end Declutter.Method
