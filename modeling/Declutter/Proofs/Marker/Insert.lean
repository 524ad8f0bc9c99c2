import Declutter.Marker
import Declutter.Proofs.Text.Lines

/-!
# Lines with markers

`Woven comment i ls anchors out`: the lines `ls`, the first of which has the number `i`, with a
marker line above each that an anchor speaks of, are `out`. The anchors are in the order of their
lines, and no two are for the same line. For such anchors this is what `insertLines` gives
(`woven_insertLines`).

Each line put in shifts the lines below it by one. So the marker of the anchor number `k` has the
number of its line in the old text, and `k` more (`Woven.getElem?_marker`). Without the lines at
these numbers, the old lines are left (`Woven.without`).
-/

namespace Declutter.Marker

open Text

/-- The numbers of the marker lines, once they are put in, if `k` are put in before. -/
def numbersFrom (k : Nat) (anchors : List Anchor) : List Nat :=
  (anchors.zipIdx k).map fun (a, k) => a.line + k

/-- The lines whose numbers, counted from `n`, are not among `numbers`. -/
def withoutFrom (n : Nat) (ls : List Text) (numbers : List Nat) : List Text :=
  ((ls.zipIdx n).filter (·.2 ∉ numbers)).map (·.1)

/-- Lines with marker lines above them, as far as the anchors say so. -/
inductive Woven (comment : Text) : Nat → List Text → List Anchor → List Text → Prop
  | done {i} : Woven comment i [] [] []
  | line {i l ls anchors out} : (∀ a ∈ anchors, i < a.line) → Woven comment (i + 1) ls anchors out →
      Woven comment i (l :: ls) anchors (l :: out)
  | marker {i l ls a anchors out} : a.line = i → (∀ b ∈ anchors, i < b.line) →
      Woven comment (i + 1) ls anchors out →
      Woven comment i (l :: ls) (a :: anchors) (lineAbove comment l a.name :: l :: out)

variable {comment s l : Text} {ls out : List Text} {anchors : List Anchor} {a : Anchor} {i : Nat}

/-! ## Putting lines in -/

theorem woven_nil (comment : Text) (i : Nat) (ls : List Text) : Woven comment i ls [] ls := by
  induction ls generalizing i with
  | nil => exact .done
  | cons l ls ih => exact .line (by simp) (ih (i + 1))

theorem filter_line_eq_nil (h : ∀ a ∈ anchors, i < a.line) : anchors.filter (·.line == i) = [] := by
  rw [List.filter_eq_nil_iff]
  intro a ha hc
  have := h a ha
  rw [eq_of_beq hc] at this
  omega

/-- Where the anchors from the line `i` on are in order, and are for lines of the text, every line
gets its own. -/
theorem woven_flatMap {all : List Anchor}
    (hall : ∀ j, i ≤ j → all.filter (·.line == j) = anchors.filter (·.line == j))
    (hs : anchors.Pairwise (·.line < ·.line))
    (hr : ∀ a ∈ anchors, i ≤ a.line ∧ a.line < i + ls.length) :
    Woven comment i ls anchors ((ls.zipIdx i).flatMap fun (l, i) =>
      (all.filter (·.line == i)).map (lineAbove comment l ·.name) ++ [l]) := by
  induction ls generalizing i anchors with
  | nil =>
    cases anchors with
    | nil => exact .done
    | cons a anchors =>
      have := hr a (List.mem_cons_self ..)
      simp only [List.length_nil] at this
      omega
  | cons l ls ih =>
    rw [List.zipIdx_cons, List.flatMap_cons]
    simp only [hall i (Nat.le_refl i)]
    simp only [List.length_cons] at hr
    by_cases hi : ∃ a ∈ anchors, a.line = i
    · -- the anchor for this line is the first
      obtain ⟨a, anchors, rfl⟩ := List.exists_cons_of_ne_nil (l := anchors) (by
        rintro rfl
        simp at hi)
      obtain ⟨hlt, hs⟩ := List.pairwise_cons.1 hs
      have ha : a.line = i := by
        obtain ⟨b, hb, rfl⟩ := hi
        rcases List.mem_cons.1 hb with rfl | hb
        · rfl
        · have := hlt b hb
          have := hr a (List.mem_cons_self ..)
          omega
      have hgt : ∀ b ∈ anchors, i < b.line := fun b hb => ha ▸ hlt b hb
      rw [List.filter_cons_of_pos (by simp [ha]), filter_line_eq_nil hgt]
      refine .marker ha hgt (ih (fun j hj => ?_) hs fun b hb => ?_)
      · rw [hall j (by omega), List.filter_cons_of_neg (by simp; omega)]
      · have := hgt b hb
        have := hr b (List.mem_cons_of_mem _ hb)
        omega
    · have hgt : ∀ a ∈ anchors, i < a.line := by
        intro a ha
        have := (hr a ha).1
        have : a.line ≠ i := fun hc => hi ⟨a, ha, hc⟩
        omega
      rw [filter_line_eq_nil hgt]
      refine .line hgt (ih (fun j hj => hall j (by omega)) hs fun a ha => ?_)
      have := hgt a ha
      have := hr a ha
      omega

/-- **Marker lines are woven in**, if the anchors are in order and are for lines of the text. -/
theorem woven_insertLines (hs : anchors.Pairwise (·.line < ·.line))
    (hr : ∀ a ∈ anchors, a.line < ls.length) :
    Woven comment 0 ls anchors (insertLines comment ls anchors) := by
  have hlate : anchors.filter (ls.length ≤ ·.line) = [] := by
    rw [List.filter_eq_nil_iff]
    intro a ha
    have := hr a ha
    simp only [decide_eq_true_eq]
    omega
  have hwoven : Woven comment 0 ls anchors _ := woven_flatMap (fun _ _ => rfl) hs fun a ha =>
    ⟨Nat.zero_le _, (Nat.zero_add ls.length).symm ▸ hr a ha⟩
  unfold insertLines
  simpa [hlate] using hwoven

/-! ## What is woven -/

theorem numbersFrom_cons (k : Nat) (a : Anchor) (anchors : List Anchor) :
    numbersFrom k (a :: anchors) = (a.line + k) :: numbersFrom (k + 1) anchors := by
  rw [numbersFrom, List.zipIdx_cons]
  rfl

theorem mem_numbersFrom {k n : Nat} (h : n ∈ numbersFrom k anchors)
    (hgt : ∀ a ∈ anchors, i < a.line) : i + k < n := by
  obtain ⟨⟨a, j⟩, hmem, rfl⟩ := List.mem_map.1 h
  have := hgt a (List.fst_mem_of_mem_zipIdx hmem)
  have := List.le_snd_of_mem_zipIdx hmem
  simp only at *
  omega

theorem withoutFrom_cons (n : Nat) (l : Text) (ls : List Text) (numbers : List Nat) :
    withoutFrom n (l :: ls) numbers =
      if n ∈ numbers then withoutFrom (n + 1) ls numbers
      else l :: withoutFrom (n + 1) ls numbers := by
  unfold withoutFrom
  rw [List.zipIdx_cons]
  split
  · next h => rw [List.filter_cons_of_neg (by simpa using h)]
  · next h => rw [List.filter_cons_of_pos (by simpa using h), List.map_cons]

theorem withoutFrom_cons_of_lt {m n : Nat} (h : m < n) (ls : List Text) (numbers : List Nat) :
    withoutFrom n ls (m :: numbers) = withoutFrom n ls numbers := by
  unfold withoutFrom
  congr 1
  apply List.filter_congr
  intro x hx
  have := List.le_snd_of_mem_zipIdx hx
  have hne : x.2 ≠ m := by omega
  simp [hne]

namespace Woven

theorem length (h : Woven comment i ls anchors out) : out.length = ls.length + anchors.length := by
  induction h with
  | done => rfl
  | line _ _ ih => simp only [List.length_cons, ih]; omega
  | marker _ _ _ ih => simp only [List.length_cons, ih]; omega

theorem ne_nil (h : Woven comment i ls anchors out) (hls : ls ≠ []) : out ≠ [] := by
  rw [← List.length_pos_iff, h.length]
  exact Nat.add_pos_left (List.length_pos_iff.2 hls) _

/-- Each marker is above its line, shifted by those before it. -/
theorem getElem?_marker (h : Woven comment i ls anchors out) {k : Nat} (hk : anchors[k]? = some a) :
    ∃ j l, a.line = i + j ∧ ls[j]? = some l ∧ out[j + k]? = some (lineAbove comment l a.name) ∧
      out[j + k + 1]? = some l := by
  induction h generalizing k with
  | done => simp at hk
  | line _ _ ih =>
    obtain ⟨j, l, h1, h2, h3, h4⟩ := ih hk
    refine ⟨j + 1, l, by omega, h2, ?_, ?_⟩
    · rw [Nat.add_right_comm, List.getElem?_cons_succ, h3]
    · rw [Nat.add_right_comm j 1, List.getElem?_cons_succ, h4]
  | @marker i l ls b anchors out hb _ _ ih =>
    cases k with
    | zero =>
      cases hk
      exact ⟨0, l, by omega, rfl, rfl, rfl⟩
    | succ k =>
      obtain ⟨j, l, h1, h2, h3, h4⟩ := ih hk
      refine ⟨j + 1, l, by omega, h2, ?_, ?_⟩
      · rw [show j + 1 + (k + 1) = j + k + 1 + 1 by omega, List.getElem?_cons_succ,
          List.getElem?_cons_succ, h3]
      · rw [show j + 1 + (k + 1) + 1 = j + k + 1 + 1 + 1 by omega, List.getElem?_cons_succ,
          List.getElem?_cons_succ, h4]

/-- **Without the marker lines**, the lines are what they were. -/
theorem without (h : Woven comment i ls anchors out) (k : Nat) :
    withoutFrom (i + k) out (numbersFrom k anchors) = ls := by
  induction h generalizing k with
  | done => rfl
  | @line i l ls anchors out hgt _ ih =>
    have hnot : i + k ∉ numbersFrom k anchors := fun hc => Nat.lt_irrefl _ (mem_numbersFrom hc hgt)
    rw [withoutFrom_cons, if_neg hnot, Nat.add_right_comm, ih]
  | @marker i l ls a anchors out ha hgt _ ih =>
    have hnot : i + k + 1 ∉ (i + k) :: numbersFrom (k + 1) anchors := by
      intro hc
      rcases List.mem_cons.1 hc with hc | hc
      · omega
      · have := mem_numbersFrom hc hgt
        omega
    rw [numbersFrom_cons, ha, withoutFrom_cons, if_pos (List.mem_cons_self ..), withoutFrom_cons,
      if_neg hnot, withoutFrom_cons_of_lt (by omega),
      show i + k + 1 + 1 = i + 1 + (k + 1) by omega, ih]

theorem forall_mem {P : Text → Prop} (h : Woven comment i ls anchors out) (hls : ∀ l ∈ ls, P l)
    (hm : ∀ l ∈ ls, ∀ a ∈ anchors, P (lineAbove comment l a.name)) : ∀ l ∈ out, P l := by
  induction h with
  | done => exact hls
  | line _ _ ih =>
    rw [List.forall_mem_cons] at hls ⊢
    exact ⟨hls.1, ih hls.2 fun l hl => hm l (List.mem_cons_of_mem _ hl)⟩
  | marker _ _ _ ih =>
    rw [List.forall_mem_cons] at hls
    rw [List.forall_mem_cons, List.forall_mem_cons]
    exact ⟨hm _ (List.mem_cons_self ..) _ (List.mem_cons_self ..), hls.1,
      ih hls.2 fun l hl a ha => hm l (List.mem_cons_of_mem _ hl) a (List.mem_cons_of_mem _ ha)⟩

/-- What holds of any two lines in order holds with the markers, if it holds of these with every
line. -/
theorem pairwise {R : Text → Text → Prop} (h : Woven comment i ls anchors out) (hls : ls.Pairwise R)
    (hm : ∀ l, ∀ a ∈ anchors, ∀ k, R (lineAbove comment l a.name) k ∧
      R k (lineAbove comment l a.name)) : out.Pairwise R := by
  induction h with
  | done => exact hls
  | line _ h ih =>
    obtain ⟨hl, hls⟩ := List.pairwise_cons.1 hls
    refine List.pairwise_cons.2 ⟨h.forall_mem hl fun k _ a ha => (hm k a ha _).2, ih hls hm⟩
  | @marker i l ls a anchors out _ _ h ih =>
    obtain ⟨hl, hls⟩ := List.pairwise_cons.1 hls
    obtain ⟨ha, hm⟩ : (∀ l k, R (lineAbove comment l a.name) k ∧ R k (lineAbove comment l a.name)) ∧
        ∀ l, ∀ a ∈ anchors, ∀ k, R (lineAbove comment l a.name) k ∧
          R k (lineAbove comment l a.name) :=
      ⟨fun l => hm l a (List.mem_cons_self ..), fun l b hb => hm l b (List.mem_cons_of_mem _ hb)⟩
    refine List.pairwise_cons.2 ⟨fun k _ => (ha l k).1, List.pairwise_cons.2 ⟨?_, ih hls hm⟩⟩
    exact h.forall_mem hl fun k _ b hb => (hm k b hb l).2

/-- What holds of a marker exactly if it does of its line holds of all lines but the last, if no
marker is above that one. -/
theorem forall_mem_dropLast {P : Text → Prop} (h : Woven comment i ls anchors out)
    (hr : ∀ a ∈ anchors, a.line + 1 < i + ls.length)
    (hm : ∀ l, ∀ a ∈ anchors, P (lineAbove comment l a.name) ↔ P l) :
    (∀ l ∈ out.dropLast, P l) ↔ ∀ l ∈ ls.dropLast, P l := by
  induction h with
  | done => exact Iff.rfl
  | @line i l ls anchors out _ h ih =>
    by_cases hnil : ls = []
    · subst hnil
      cases h
      simp
    · rw [List.dropLast_cons_of_ne_nil hnil, List.dropLast_cons_of_ne_nil (h.ne_nil hnil),
        List.forall_mem_cons, List.forall_mem_cons, ih ?_ hm]
      intro a ha
      have := hr a ha
      rw [List.length_cons] at this
      omega
  | @marker i l ls a anchors out ha _ h ih =>
    obtain ⟨hra, hr⟩ := List.forall_mem_cons.1 hr
    rw [List.length_cons] at hra hr
    have hnil : ls ≠ [] := List.length_pos_iff.1 (by omega)
    rw [List.dropLast_cons_of_ne_nil hnil, List.dropLast_cons_of_ne_nil (by simp),
      List.dropLast_cons_of_ne_nil (h.ne_nil hnil), List.forall_mem_cons, List.forall_mem_cons,
      List.forall_mem_cons, ih ?_ fun l b hb => hm l b (List.mem_cons_of_mem _ hb),
      hm l a (List.mem_cons_self ..)]
    · exact ⟨And.right, fun hall => ⟨hall.1, hall⟩⟩
    · intro b hb
      have := hr b hb
      omega

end Woven

/-! ## Texts with markers -/

theorem not_mem_lineAbove {e : Char} {name : Text} (he : e ∉ '\r' :: wording [] [])
    (hc : e ∉ comment) (hl : e ∉ l.takeWhile isIndent) (hn : e ∉ name) :
    e ∉ lineAbove comment l name := by
  have hend : e ∉ (if l.getLast? = some '\r' then ['\r'] else [] : Text) := by
    intro hmem
    split at hmem
    · exact he (List.mem_cons.2 (.inl (List.mem_singleton.1 hmem)))
    · cases hmem
  simp only [wording, List.nil_append, List.append_nil, List.mem_cons, List.mem_append,
    not_or] at he
  simp only [lineAbove, wording, List.mem_append, not_or]
  exact ⟨⟨hl, ⟨⟨hc, he.2.1⟩, hn⟩, he.2.2⟩, hend⟩

/-- A marker line ends like the line below it. -/
theorem getLast?_lineAbove (comment l name : Text) :
    (lineAbove comment l name).getLast? = some '\r' ↔ l.getLast? = some '\r' := by
  unfold lineAbove
  split
  · next h => simp [h]
  · next h =>
    have hlast : (wording comment name).getLast? = some '.' := by
      rw [wording, List.getLast?_append_of_ne_nil _ (by decide)]
      decide
    have hne : wording comment name ≠ [] := by
      intro hnil
      rw [hnil] at hlast
      cases hlast
    simp [List.getLast?_append_of_ne_nil _ hne, hlast, h]

/-- The lines of a text with markers, if the anchors are in order and are for lines of the text. -/
theorem woven_annotate (hc : '\n' ∉ comment) (hn : ∀ a ∈ anchors, '\n' ∉ a.name)
    (hs : anchors.Pairwise (·.line < ·.line)) (hr : ∀ a ∈ anchors, a.line < s.lines.length) :
    Woven comment 0 s.lines anchors (annotate comment s anchors).lines := by
  cases anchors with
  | nil => exact woven_nil comment 0 s.lines
  | cons a anchors =>
    have hw : Woven comment 0 s.lines (a :: anchors) _ := woven_insertLines hs hr
    have hfeed := hw.forall_mem (fun l hl => not_mem_of_mem_lines hl) fun l hl b hb =>
      not_mem_lineAbove (by decide) hc
        (fun h => not_mem_of_mem_lines hl ((List.takeWhile_sublist _).subset h)) (hn b hb)
    show Woven comment 0 s.lines (a :: anchors)
      (unlines (insertLines comment s.lines (a :: anchors))).lines
    rw [lines_unlines hfeed (hw.ne_nil (lines_ne_nil s))]
    exact hw

end Declutter.Marker
