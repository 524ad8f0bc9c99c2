import Mathlib
import Declutter.Proofs.Marker.Insert

/-!
# Markers from the bottom up

`insertBottomUp` puts marker lines in one at a time, the lowest first, so that no line has moved
when its marker is put above it. `annotate_eq_insertBottomUp` says that this is what `annotate` does
in one pass, for anchors in any order, of which some may be for the same line and some for lines
that the text does not have.

Anchors in the order of their lines are given by what they are for each line (`InOrder.eq`), so
sorting the anchors does not change what `insertLines` gives (`insertLines_byLine`). Of sorted
anchors, the first is the last to be put in (`insertLines_cons`).
-/

namespace Declutter.Marker

open Text

variable {comment : Text} {ls : List Text} {anchors anchors' : List Anchor} {a : Anchor} {i : Nat}

/-- The anchors in the order of their lines; those for the same line keep their order. -/
def byLine (anchors : List Anchor) : List Anchor := anchors.mergeSort (·.line ≤ ·.line)

/-- Puts the marker line of an anchor into `out`: above the line of `ls` that it is for, with the
indentation and the carriage return of that line, or else bare and after the lines of `ls`. -/
def putMarker (comment : Text) (ls out : List Text) (a : Anchor) : List Text :=
  let below := ls[a.line]?.getD []
  let text := comment ++ " Core logic for ".toList ++ a.name ++
    ". Involves multiple steps and state changes.".toList
  out.insertIdx (min a.line ls.length)
    (below.takeWhile (fun ch => ch == ' ' || ch == '\t') ++ text ++
      (if below.getLast? = some '\r' then ['\r'] else []))

/-- The lines with the marker lines put in one at a time, those for the last lines first. Of several
for the same line, the last is put in first. -/
def insertBottomUp (comment : Text) (ls : List Text) (anchors : List Anchor) : List Text :=
  (byLine anchors).reverse.foldl (putMarker comment ls) ls

/-! ## Anchors in the order of their lines -/

def InOrder (anchors : List Anchor) : Prop := anchors.Pairwise (·.line ≤ ·.line)

/-- Anchors in order are the same if they are the same for each line. -/
theorem InOrder.eq (h : InOrder anchors) (h' : InOrder anchors')
    (hline : ∀ i, anchors.filter (·.line == i) = anchors'.filter (·.line == i)) :
    anchors = anchors' := by
  induction anchors generalizing anchors' with
  | nil =>
    cases anchors' with
    | nil => rfl
    | cons b anchors' => simpa using hline b.line
  | cons a anchors ih =>
    cases anchors' with
    | nil => simpa using hline a.line
    | cons b anchors' =>
      obtain ⟨ha, hrest⟩ := List.pairwise_cons.1 h
      obtain ⟨hb, hrest'⟩ := List.pairwise_cons.1 h'
      have hmem : ∀ c, c ∈ a :: anchors ↔ c ∈ b :: anchors' := by
        intro c
        have := congrArg (c ∈ ·) (hline c.line)
        simpa using this
      -- each of the two is for the first line that has an anchor
      have hle : b.line ≤ a.line := by
        rcases List.mem_cons.1 ((hmem a).1 (List.mem_cons_self ..)) with heq | hmem
        · rw [heq]
        · exact hb a hmem
      have hge : a.line ≤ b.line := by
        rcases List.mem_cons.1 ((hmem b).2 (List.mem_cons_self ..)) with heq | hmem
        · rw [heq]
        · exact ha b hmem
      have hfirst := hline a.line
      rw [List.filter_cons_of_pos (by simp), List.filter_cons_of_pos (by simp; omega)] at hfirst
      obtain ⟨rfl, -⟩ := List.cons.inj hfirst
      refine congrArg (a :: ·) (ih hrest hrest' fun i => ?_)
      have hi := hline i
      rw [List.filter_cons, List.filter_cons] at hi
      split at hi
      · exact (List.cons.inj hi).2
      · exact hi

theorem le_line_trans (a b c : Anchor) (h : decide (a.line ≤ b.line))
    (h' : decide (b.line ≤ c.line)) : decide (a.line ≤ c.line) :=
  decide_eq_true (Nat.le_trans (of_decide_eq_true h) (of_decide_eq_true h'))

theorem le_line_total (a b : Anchor) : decide (a.line ≤ b.line) || decide (b.line ≤ a.line) := by
  simpa using Nat.le_total ..

theorem inOrder_byLine (anchors : List Anchor) : InOrder (byLine anchors) :=
  (List.pairwise_mergeSort le_line_trans le_line_total anchors).imp of_decide_eq_true

theorem byLine_of_inOrder (h : InOrder anchors) : byLine anchors = anchors :=
  List.mergeSort_of_pairwise (h.imp decide_eq_true)

theorem filter_byLine (anchors : List Anchor) (i : Nat) :
    (byLine anchors).filter (·.line == i) = anchors.filter (·.line == i) := by
  -- the anchors for one line are in order, so sorting leaves them as they are
  have hsorted : (anchors.filter (·.line == i)).Pairwise fun a b => decide (a.line ≤ b.line) := by
    apply List.pairwise_of_forall_mem_list
    intro a ha b hb
    have := eq_of_beq (List.mem_filter.1 ha).2
    have := eq_of_beq (List.mem_filter.1 hb).2
    simp only [decide_eq_true_eq]
    omega
  have hsub := (List.sublist_mergeSort le_line_trans le_line_total hsorted
    List.filter_sublist).filter (·.line == i)
  rw [List.filter_filter] at hsub
  simp only [Bool.and_self] at hsub
  exact (hsub.eq_of_length ((List.mergeSort_perm ..).filter _).length_eq.symm).symm

theorem byLine_filter (p : Anchor → Bool) (anchors : List Anchor) :
    byLine (anchors.filter p) = (byLine anchors).filter p := by
  apply (inOrder_byLine _).eq ((inOrder_byLine anchors).filter p)
  intro i
  rw [filter_byLine, List.filter_comm, ← filter_byLine, List.filter_comm]

/-! ## One more marker -/

/-- The lines, the first of which has the number `i`, each with its markers. -/
def withMarkers (comment : Text) (anchors : List Anchor) (i : Nat) (ls : List Text) : List Text :=
  (ls.zipIdx i).flatMap fun (l, i) =>
    (anchors.filter (·.line == i)).map (lineAbove comment l ·.name) ++ [l]

theorem insertLines_eq (comment : Text) (ls : List Text) (anchors : List Anchor) :
    insertLines comment ls anchors = withMarkers comment anchors 0 ls ++
      (byLine (anchors.filter (ls.length ≤ ·.line))).map (lineAbove comment [] ·.name) := rfl

theorem withMarkers_cons (comment : Text) (anchors : List Anchor) (i : Nat) (l : Text)
    (ls : List Text) :
    withMarkers comment anchors i (l :: ls) =
      (anchors.filter (·.line == i)).map (lineAbove comment l ·.name) ++
        l :: withMarkers comment anchors (i + 1) ls := by
  unfold withMarkers
  rw [List.zipIdx_cons, List.flatMap_cons, List.append_assoc]
  rfl

theorem withMarkers_append (comment : Text) (anchors : List Anchor) (i : Nat) (ls ks : List Text) :
    withMarkers comment anchors i (ls ++ ks) =
      withMarkers comment anchors i ls ++ withMarkers comment anchors (i + ls.length) ks := by
  unfold withMarkers
  rw [List.zipIdx_append, List.flatMap_append]

/-- Lines that no anchor is for have no markers. -/
theorem withMarkers_of_le (h : ∀ a ∈ anchors, i + ls.length ≤ a.line) :
    withMarkers comment anchors i ls = ls := by
  induction ls generalizing i with
  | nil => rfl
  | cons l ls ih =>
    have hlater : ∀ a ∈ anchors, i + 1 + ls.length ≤ a.line := by
      intro a ha
      have := h a ha
      rw [List.length_cons] at this
      omega
    have hnone : anchors.filter (·.line == i) = [] := by
      apply filter_line_eq_nil
      intro a ha
      have := hlater a ha
      omega
    rw [withMarkers_cons, hnone, ih hlater]
    rfl

theorem withMarkers_cons_of_lt (h : a.line < i) :
    withMarkers comment (a :: anchors) i ls = withMarkers comment anchors i ls := by
  induction ls generalizing i with
  | nil => rfl
  | cons l ls ih =>
    rw [withMarkers_cons, withMarkers_cons, ih (by omega),
      List.filter_cons_of_neg (by simp; omega)]

theorem insertIdx_append {α : Type} (xs ys : List α) (y : α) :
    (xs ++ ys).insertIdx xs.length y = xs ++ y :: ys := by
  induction xs with
  | nil => rfl
  | cons x xs ih => simp [ih]

/-- The lines before the first that has a marker stay in front. -/
theorem insertLines_append {before rest : List Text}
    (h : ∀ b ∈ anchors, before.length ≤ b.line) :
    insertLines comment (before ++ rest) anchors =
      before ++ (withMarkers comment anchors before.length rest ++
        (byLine (anchors.filter ((before ++ rest).length ≤ ·.line))).map
          (lineAbove comment [] ·.name)) := by
  rw [insertLines_eq, withMarkers_append, withMarkers_of_le (by simpa using h), Nat.zero_add,
    List.append_assoc]

/-- Anchors in order that are for no lines of the text have their markers at its end. -/
theorem insertLines_late (h : InOrder anchors) (hlate : ∀ b ∈ anchors, ls.length ≤ b.line) :
    insertLines comment ls anchors = ls ++ anchors.map (lineAbove comment [] ·.name) := by
  rw [insertLines_eq, withMarkers_of_le (by simpa using hlate),
    List.filter_eq_self.2 (by simpa using hlate), byLine_of_inOrder h]

theorem putMarker_eq (comment : Text) (ls out : List Text) (a : Anchor) :
    putMarker comment ls out a =
      out.insertIdx (min a.line ls.length) (lineAbove comment (ls[a.line]?.getD []) a.name) := rfl

/-- **One more anchor in front** of anchors in order is one more line put in. -/
theorem insertLines_cons (h : InOrder (a :: anchors)) :
    insertLines comment ls (a :: anchors) =
      putMarker comment ls (insertLines comment ls anchors) a := by
  obtain ⟨hle, hrest⟩ := List.pairwise_cons.1 h
  have hall : ∀ b ∈ a :: anchors, a.line ≤ b.line := List.forall_mem_cons.2 ⟨Nat.le_refl _, hle⟩
  rw [putMarker_eq]
  by_cases hlt : a.line < ls.length
  · obtain ⟨before, l, after, rfl, hlen⟩ : ∃ before l after, ls = before ++ l :: after ∧
        before.length = a.line :=
      ⟨ls.take a.line, ls[a.line], ls.drop (a.line + 1), by simp, by simp; omega⟩
    have hhere : (before ++ l :: after)[a.line]? = some l := by simp [← hlen]
    rw [insertLines_append (hlen ▸ hall), insertLines_append (hlen ▸ hle), hhere,
      Nat.min_eq_left (Nat.le_of_lt hlt), ← hlen, insertIdx_append, withMarkers_cons,
      withMarkers_cons_of_lt (by omega), withMarkers_cons, List.filter_cons_of_pos (by simp [hlen]),
      List.filter_cons_of_neg (by simpa using hlt)]
    rfl
  · have hlate : ∀ b ∈ a :: anchors, ls.length ≤ b.line := by
      intro b hb
      have := hall b hb
      omega
    rw [insertLines_late h hlate, insertLines_late hrest (List.forall_mem_cons.1 hlate).2,
      Nat.min_eq_right (by omega), insertIdx_append, List.getElem?_eq_none (by omega)]
    rfl

/-! ## All markers -/

theorem insertLines_nil (comment : Text) (ls : List Text) : insertLines comment ls [] = ls := by
  rw [insertLines_late .nil (by simp), List.map_nil, List.append_nil]

/-- The order of anchors for different lines does not matter. -/
theorem insertLines_byLine (comment : Text) (ls : List Text) (anchors : List Anchor) :
    insertLines comment ls (byLine anchors) = insertLines comment ls anchors := by
  rw [insertLines_eq, insertLines_eq, ← byLine_filter, byLine_of_inOrder (inOrder_byLine _)]
  simp only [withMarkers, filter_byLine]

theorem insertLines_eq_foldr (h : InOrder anchors) :
    insertLines comment ls anchors =
      anchors.foldr (fun a out => putMarker comment ls out a) ls := by
  induction anchors with
  | nil => exact insertLines_nil comment ls
  | cons a anchors ih => rw [insertLines_cons h, ih (List.pairwise_cons.1 h).2, List.foldr_cons]

theorem insertLines_eq_insertBottomUp (comment : Text) (ls : List Text) (anchors : List Anchor) :
    insertLines comment ls anchors = insertBottomUp comment ls anchors := by
  rw [insertBottomUp, List.foldl_reverse, ← insertLines_eq_foldr (inOrder_byLine anchors),
    insertLines_byLine]

/-- **One pass is as good as one line at a time**, from the bottom up. -/
theorem annotate_eq_insertBottomUp (comment s : Text) (anchors : List Anchor) :
    annotate comment s anchors = unlines (insertBottomUp comment s.lines anchors) := by
  rw [← insertLines_eq_insertBottomUp, annotate]
  split
  · next hnil => rw [List.isEmpty_iff.1 hnil, insertLines_nil, unlines_lines]
  · rfl

end Declutter.Marker
