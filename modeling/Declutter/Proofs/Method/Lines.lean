import Declutter.Method.Scan
import Declutter.Proofs.Text.Lines

/-!
# The lines that methods begin on

`openingsFrom`: all openings of a text, each with its line, whether or not the body ends. The
methods that `scanFrom` finds are made from them (`scanFrom_eq`). An opening stands where a line
begins, and that line is counted (`openingsFrom_eq_append`); the next one is on a line further down
(`openingsFrom_pairwise`). So no two methods begin on the same line (`scanFrom_pairwise`).

Names are always without line feeds. Signatures are if modifiers are, and then the line on which a
method begins has its signature (`flagged_lines`).
-/

namespace Declutter.Method

open Text

variable {modifiers : List Text} {s m : Text} {o : Opening} {x : Span} {line : Nat} {fresh : Bool}

/-! ## Signatures and names -/

theorem not_mem_parameters? (h : parameters? s = some o) : '\n' ∉ o.signature := by
  induction s generalizing o with
  | nil => simp [parameters?] at h
  | cons c s ih =>
    simp only [parameters?] at h
    split at h
    · cases h
    next hc =>
    have hne : '\n' ≠ c := by
      rintro rfl
      simp at hc
    split at h
    · next o' ho =>
      cases h
      simp [Opening.extend, hne, ih ho]
    split at h
    · split at h
      · cases h
        simp
      · cases h
    · cases h

theorem not_mem_modified? (hm : '\n' ∉ m) (h : modified? s m = some o) : '\n' ∉ o.signature := by
  simp only [modified?] at h
  split at h
  · split at h
    · obtain ⟨o', ho, rfl⟩ := Option.map_eq_some_iff.1 h
      simp [Opening.extend, hm, not_mem_parameters? ho]
    · cases h
  · cases h

/-- A signature has no line feed. -/
theorem not_mem_opening? (hm : ∀ m ∈ modifiers, '\n' ∉ m) (h : opening? modifiers s = some o) :
    '\n' ∉ o.signature := by
  induction s generalizing o with
  | nil => simp [opening?] at h
  | cons c s ih =>
    simp only [opening?, Option.or_eq_some_iff] at h
    rcases h with h | ⟨-, h⟩
    · split at h
      · next hc =>
        obtain ⟨o', ho, rfl⟩ := Option.map_eq_some_iff.1 h
        have hne : '\n' ≠ c := by
          rintro rfl
          simp [isIndent] at hc
        simp [Opening.extend, hne, ih ho]
      · cases h
    · obtain ⟨m, hmem, h⟩ := List.exists_of_findSome?_eq_some h
      exact not_mem_modified? (hm m hmem) h

theorem isNameChar_of_mem_name? {n : Text} {c : Char} (h : name? s = some n) (hc : c ∈ n) :
    isNameChar c := by
  induction s with
  | nil => cases h
  | cons d s ih =>
    simp only [name?] at h
    split at h
    · next hd =>
      cases h
      rw [Bool.and_eq_true] at hd
      rcases List.mem_cons.1 hc with rfl | hc
      · rcases Bool.or_eq_true_iff.1 hd.1 with hstart | hstart
        · simp [isNameChar, Char.isAlphanum, hstart]
        · simp [isNameChar, hstart]
      · exact List.all_eq_true.1 List.all_takeWhile _ hc
    · exact ih h

theorem isNameChar_of_mem_shownName {signature : Text} {c : Char} (hc : c ∈ shownName signature) :
    isNameChar c := by
  unfold shownName at hc
  cases h : name? signature with
  | none =>
    have hall : placeholder.all isNameChar := by decide
    rw [h] at hc
    exact List.all_eq_true.1 hall c hc
  | some n =>
    rw [h] at hc
    exact isNameChar_of_mem_name? h hc

theorem not_mem_shownName (signature : Text) : '\n' ∉ shownName signature := by
  intro hc
  exact absurd (isNameChar_of_mem_shownName hc) (by decide)

/-! ## Where lines begin -/

/-- Whether a line begins after a text. -/
def startsLine (before : Text) : Bool := before.getLast?.all (· == '\n')

theorem exists_of_startsLine {before : Text} (h : startsLine before) (hne : before ≠ []) :
    ∃ front : Text, before = front ++ ['\n'] := by
  rw [startsLine, List.getLast?_eq_some_getLast hne] at h
  apply List.getLast?_eq_some_iff.1
  rw [List.getLast?_eq_some_getLast hne, eq_of_beq h]

theorem drop_lines {before : Text} (h : startsLine before) (t : Text) :
    (before ++ t).lines.drop (feeds before) = t.lines := by
  by_cases hnil : before = []
  · subst hnil
    rfl
  · obtain ⟨front, rfl⟩ := exists_of_startsLine h hnil
    have hlen : feeds (front ++ ['\n']) = front.lines.length := by
      rw [feeds_append, length_lines]
      rfl
    rw [hlen, List.append_assoc, List.singleton_append, lines_append_feed, List.drop_left]

/-! ## One opening -/

/-- What stands before the brace of an opening. -/
def Opening.front (o : Opening) : Text := o.signature ++ o.gap

theorem opening?_front (h : opening? modifiers s = some o) : s = o.front ++ '{' :: o.body := by
  rw [opening?_eq_some h, Opening.head, Opening.front, List.append_assoc _ ['{']]
  rfl

theorem span?_eq_some (h : o.span? line = some x) :
    x.startLine = line ∧ x.signature = o.signature.trim ∧ x.name = shownName x.signature := by
  obtain ⟨n, -, rfl⟩ := Option.map_eq_some_iff.1 h
  exact ⟨rfl, rfl, rfl⟩

/-- The signature of an opening is on the first line of the text. -/
theorem opening?_line (hm : ∀ m ∈ modifiers, '\n' ∉ m) (h : opening? modifiers s = some o) :
    ∃ l, s.lines[0]? = some l ∧ o.signature.trim <:+: l := by
  obtain ⟨l, ls, -, hl⟩ := lines_append (not_mem_opening? hm h) (o.gap ++ '{' :: o.body)
  refine ⟨o.signature ++ l, ?_, (trim_isInfix _).trans (List.prefix_append ..).isInfix⟩
  rw [opening?_front h, Opening.front, List.append_assoc, hl]
  rfl

/-! ## All openings -/

/-- The openings of a text that begins on `line`, each with its line. `fresh` says that a line
begins here. -/
def openingsFrom (modifiers : List Text) (line : Nat) (fresh : Bool) : Text → List (Nat × Opening)
  | [] => []
  | c :: s =>
    match _h : if fresh then opening? modifiers (c :: s) else none with
    | some o => (line, o) :: openingsFrom modifiers (line + feeds o.head) false o.body
    | none => openingsFrom modifiers (if c == '\n' then line + 1 else line) (c == '\n') s
termination_by s => s.length
decreasing_by
  · split at _h
    · exact length_body_lt _h
    · simp at _h
  · simp

theorem openingsFrom_of_some (h : opening? modifiers s = some o) :
    openingsFrom modifiers line true s =
      (line, o) :: openingsFrom modifiers (line + feeds o.head) false o.body := by
  cases s with
  | nil => cases h
  | cons c s =>
    rw [openingsFrom]
    split
    · next h' =>
      rw [if_pos rfl, h] at h'
      cases h'
      rfl
    · next h' =>
      rw [if_pos rfl, h] at h'
      cases h'

theorem openingsFrom_of_none {c : Char} (h : fresh → opening? modifiers (c :: s) = none) :
    openingsFrom modifiers line fresh (c :: s) =
      openingsFrom modifiers (if c == '\n' then line + 1 else line) (c == '\n') s := by
  rw [openingsFrom]
  split
  · next h' =>
    rw [Option.ite_none_right_eq_some] at h'
    rw [h h'.1] at h'
    cases h'.2
  · rfl

/-- The methods are the openings whose bodies end. -/
theorem scanFrom_eq (modifiers : List Text) (line : Nat) (fresh : Bool) (s : Text) :
    scanFrom modifiers line fresh s =
      (openingsFrom modifiers line fresh s).filterMap fun x => x.2.span? x.1 := by
  fun_induction scanFrom modifiers line fresh s with
  | case1 => rw [openingsFrom]; rfl
  | case2 line fresh c s o h ih =>
    rw [dite_eq_ite, Option.ite_none_right_eq_some] at h
    obtain ⟨rfl, hopen⟩ := h
    rw [openingsFrom_of_some hopen, List.filterMap_cons, ih]
    cases o.span? line <;> rfl
  | case3 line fresh c s h ih =>
    simp only [dite_eq_ite] at h ih
    rw [ih, openingsFrom_of_none]
    intro hfresh
    rwa [if_pos hfresh] at h

/-- **Where openings stand.** An opening is found where a line begins, and that line is counted. -/
theorem openingsFrom_eq_append {y : Nat × Opening} (h : y ∈ openingsFrom modifiers line fresh s) :
    ∃ before t, s = before ++ t ∧ startsLine before ∧ (before = [] → fresh) ∧
      opening? modifiers t = some y.2 ∧ y.1 = line + feeds before := by
  fun_induction openingsFrom modifiers line fresh s with
  | case1 => cases h
  | case2 line fresh c s o ho ih =>
    rw [dite_eq_ite, Option.ite_none_right_eq_some] at ho
    obtain ⟨rfl, hopen⟩ := ho
    rcases List.mem_cons.1 h with rfl | h
    · exact ⟨[], c :: s, rfl, rfl, fun _ => rfl, hopen, rfl⟩
    · -- no line begins right behind the brace
      obtain ⟨before, t, hbody, hstart, hfresh, ht, hline⟩ := ih h
      have hne : before ≠ [] := fun hnil => absurd (hfresh hnil) (by decide)
      refine ⟨o.head ++ before, t, ?_, ?_, fun _ => rfl, ht, ?_⟩
      · rw [opening?_eq_some hopen, hbody, List.append_assoc]
      · rwa [startsLine, List.getLast?_append_of_ne_nil _ hne]
      · rw [hline, feeds_append, Nat.add_assoc]
  | case3 line fresh c s _ ih =>
    obtain ⟨before, t, rfl, hstart, hfresh, ht, hline⟩ := ih h
    refine ⟨c :: before, t, rfl, ?_, by simp, ht, ?_⟩
    · by_cases hnil : before = []
      · subst hnil
        exact hfresh rfl
      · rwa [startsLine, ← List.singleton_append, List.getLast?_append_of_ne_nil _ hnil]
    · by_cases hc : c = '\n'
      · rw [hline, dif_pos (by simpa using hc), hc, feeds, feeds, List.count_cons_self]
        omega
      · rw [hline, dif_neg (by simpa using hc), feeds, feeds, List.count_cons_of_ne hc]

/-- **An opening behind another**: from the brace on there is a line feed before it, so it is on a
line further down. -/
theorem openingsFrom_pairwise (modifiers : List Text) (line : Nat) (fresh : Bool) (s : Text) :
    (openingsFrom modifiers line fresh s).Pairwise fun y z => y.1 < z.1 ∧ ∃ between,
      y.2.body = between ++ z.2.front ++ '{' :: z.2.body ∧ '\n' ∈ between := by
  fun_induction openingsFrom modifiers line fresh s with
  | case1 => exact .nil
  | case2 line fresh c s o _ ih =>
    refine List.pairwise_cons.2 ⟨fun z hz => ?_, ih⟩
    obtain ⟨between, t, hbody, hstart, hfresh, hopen, hline⟩ := openingsFrom_eq_append hz
    have hne : between ≠ [] := fun hnil => absurd (hfresh hnil) (by decide)
    obtain ⟨front, rfl⟩ := exists_of_startsLine hstart hne
    have hfeed : '\n' ∈ front ++ ['\n'] := by simp
    have hpos : 0 < feeds (front ++ ['\n']) := List.count_pos_iff.2 hfeed
    refine ⟨?_, front ++ ['\n'], ?_, hfeed⟩
    · rw [hline]
      omega
    · rw [hbody, opening?_front hopen, List.append_assoc (front ++ ['\n'])]
  | case3 _ _ _ _ _ ih => exact ih

/-! ## All methods -/

theorem scanFrom_opening (h : x ∈ scanFrom modifiers line fresh s) : ∃ before t o,
    s = before ++ t ∧ startsLine before ∧ opening? modifiers t = some o ∧
      o.span? (line + feeds before) = some x := by
  rw [scanFrom_eq] at h
  obtain ⟨⟨_, o⟩, hmem, hspan⟩ := List.mem_filterMap.1 h
  obtain ⟨before, t, hs, hstart, -, hopen, rfl⟩ := openingsFrom_eq_append hmem
  exact ⟨before, t, o, hs, hstart, hopen, hspan⟩

theorem scanFrom_pairwise (modifiers : List Text) (line : Nat) (fresh : Bool) (s : Text) :
    (scanFrom modifiers line fresh s).Pairwise (·.startLine < ·.startLine) := by
  rw [scanFrom_eq, List.pairwise_filterMap]
  refine (openingsFrom_pairwise modifiers line fresh s).imp fun hyz m hm n hn => ?_
  rw [(span?_eq_some hm).1, (span?_eq_some hn).1]
  exact hyz.1

theorem scanFrom_name (h : x ∈ scanFrom modifiers line fresh s) :
    x.name = shownName x.signature := by
  obtain ⟨before, t, o, -, -, -, hspan⟩ := scanFrom_opening h
  exact (span?_eq_some hspan).2.2

variable {lexicon : Lexicon} {threshold : Nat}

/-- A long method begins on a line that has its signature. -/
theorem flagged_lines (hm : ∀ m ∈ lexicon.modifiers, '\n' ∉ m)
    (h : x ∈ flagged lexicon threshold s) :
    ∃ l, s.lines[x.startLine]? = some l ∧ x.signature <:+: l := by
  obtain ⟨before, t, o, rfl, hstart, hopen, hspan⟩ := scanFrom_opening (List.mem_of_mem_filter h)
  obtain ⟨hline, hsig, -⟩ := span?_eq_some hspan
  obtain ⟨l, hl, hinfix⟩ := opening?_line (fun m hmem => hm m (List.mem_of_mem_filter hmem)) hopen
  refine ⟨l, ?_, hsig ▸ hinfix⟩
  rwa [← drop_lines hstart t, List.getElem?_drop, Nat.add_comm, ← hline] at hl

/-- **Long methods are in the order of their lines**, no two on the same. -/
theorem flagged_pairwise (lexicon : Lexicon) (threshold : Nat) (s : Text) :
    (flagged lexicon threshold s).Pairwise (·.startLine < ·.startLine) :=
  (scanFrom_pairwise _ 0 true s).filter _

theorem not_mem_name_of_flagged (h : x ∈ flagged lexicon threshold s) : '\n' ∉ x.name := by
  rw [scanFrom_name (List.mem_of_mem_filter h)]
  exact not_mem_shownName _

end Declutter.Method
