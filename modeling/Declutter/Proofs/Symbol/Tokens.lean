import Mathlib
import Declutter.Proofs.Ordered.Members
import Declutter.Proofs.Symbol.Capture

/-!
# Definitions word by word

The scan for definitions goes from character to character and tries every keyword where a word
begins or ends. If the keywords are words themselves, this is a walk over the words of the text
(`definitions_eq_definedBy`): a keyword fits only where it is a whole word
(`eq_takeWhile_of_introduced?`), so at most one fits, and nothing is found from within a word on.

A name ends at the first character that is not ASCII, and the word may go on behind it. The scan
goes on there as well, but the next word edge is the end of that word.
-/

namespace Declutter

namespace Text

variable {p q : Char → Bool} {c : Char} {s : Text}

theorem dropWhile_dropWhile (h : ∀ c, p c → q c) (s : Text) :
    (s.dropWhile p).dropWhile q = s.dropWhile q := by
  induction s with
  | nil => rfl
  | cons c s ih =>
    by_cases hp : p c
    · rw [List.dropWhile_cons_of_pos hp, List.dropWhile_cons_of_pos (h c hp), ih]
    · rw [List.dropWhile_cons_of_neg hp]

theorem takeWhile_takeWhile (h : ∀ c, p c → q c) (s : Text) :
    (s.takeWhile q).takeWhile p = s.takeWhile p := by
  rw [List.takeWhile_takeWhile]
  congr 1
  funext c
  by_cases hp : p c <;> simp [hp, h c]

theorem takeWhile_eq_append (h : ∀ c, p c → q c) (s : Text) :
    s.takeWhile q = s.takeWhile p ++ (s.dropWhile p).takeWhile q := by
  have hp : ∀ c ∈ s.takeWhile p, q c :=
    fun c hc => h c (List.all_eq_true.1 List.all_takeWhile c hc)
  rw [← List.takeWhile_append_of_pos hp, List.takeWhile_append_dropWhile]

/-! ## Tokens -/

/-- A word of a text, with what stands between it and the next one. -/
structure Token where
  word : Text
  gap : Text

/-- The words of a text from left to right, with the gaps between them. -/
def tokens : Text → List Token
  | [] => []
  | c :: s =>
    if isWord c then
      { word := c :: s.takeWhile isWord, gap := (s.dropWhile isWord).takeWhile (!isWord ·) } ::
        tokens (s.dropWhile isWord)
    else tokens s
termination_by s => s.length
decreasing_by
  · exact Nat.lt_succ_of_le (List.dropWhile_sublist isWord).length_le
  · simp

theorem tokens_cons_of_isWord (h : isWord c) (s : Text) : tokens (c :: s) =
    { word := c :: s.takeWhile isWord, gap := (s.dropWhile isWord).takeWhile (!isWord ·) } ::
      tokens (s.dropWhile isWord) := by
  rw [tokens, if_pos h]

theorem tokens_cons_of_not_isWord (h : isWord c = false) (s : Text) :
    tokens (c :: s) = tokens s := by
  rw [tokens, if_neg (by simp [h])]

theorem tokens_dropWhile (s : Text) : tokens (s.dropWhile (!isWord ·)) = tokens s := by
  induction s with
  | nil => rfl
  | cons c s ih =>
    by_cases h : isWord c
    · rw [List.dropWhile_cons_of_neg (by simp [h])]
    · rw [List.dropWhile_cons_of_pos (by simpa using h), ih,
        tokens_cons_of_not_isWord (by simpa using h)]

/-- The words of the tokens are the words of the text. -/
theorem map_word_tokens (s : Text) : (tokens s).map (·.word) = s.words := by
  fun_induction tokens s with
  | case1 => rfl
  | case2 c s h ih => rw [words_cons_of_isWord h, ← ih, List.map_cons]
  | case3 c s h ih => rw [words_cons (by simpa using h), ih]

/-- The tokens spell the text, from its first word on. -/
theorem append_tokens (s : Text) :
    s.takeWhile (!isWord ·) ++ ((tokens s).flatMap fun t => t.word ++ t.gap) = s := by
  fun_induction tokens s with
  | case1 => rfl
  | case2 c s h ih =>
    rw [List.takeWhile_cons_of_neg (by simp [h])]
    simp only [List.nil_append, List.flatMap_cons, List.append_assoc, List.cons_append]
    rw [ih, List.takeWhile_append_dropWhile]
  | case3 c s h ih => rw [List.takeWhile_cons_of_pos (by simpa using h), List.cons_append, ih]

theorem word_ne_nil {t : Token} (h : t ∈ tokens s) : t.word ≠ [] := by
  have hmem : t.word ∈ s.words := by
    rw [← map_word_tokens]
    exact List.mem_map_of_mem h
  simpa using (List.mem_filter.1 hmem).2

end Text

namespace Symbol

open Text

variable {keywords : List Text} {left : Option Char} {c : Char} {s k name after : Text}
  {x : Lexicon}

/-- The names that tokens define: where a keyword is followed by blanks only, up to a word that
begins like a name, this is as much of that word as a name can have. -/
def definedBy (keywords : List Text) : List Token → List Text
  | a :: b :: rest =>
    if keywords.contains a.word && a.gap.all isBlank && b.word.head?.any isNameStart then
      b.word.takeWhile isNameChar :: definedBy keywords rest
    else definedBy keywords (b :: rest)
  | _ => []

/-- What is left of a text from its next word on, after the word it begins in. -/
def nextWord (s : Text) : Text := (s.dropWhile isWord).dropWhile (!isWord ·)

/-- Whether there are only blanks up to the next word, and that begins like a name. -/
def introduces (rest : Text) : Bool :=
  (rest.takeWhile (!isWord ·)).all isBlank && (rest.dropWhile (!isWord ·)).head?.any isNameStart

theorem definedBy_congr {keywords' : List Text} {ts : List Token}
    (h : ∀ t ∈ ts, keywords.contains t.word = keywords'.contains t.word) :
    definedBy keywords ts = definedBy keywords' ts := by
  fun_induction definedBy keywords ts with
  | case1 a b rest hcond ih =>
    rw [definedBy, ← h a (by simp), if_pos hcond, ih fun t ht => h t (by simp [ht])]
  | case2 a b rest hcond ih =>
    rw [definedBy, ← h a (by simp), if_neg hcond, ih fun t ht => h t (List.mem_cons_of_mem _ ht)]
  | case3 ts hts => rw [definedBy.eq_2 _ _ hts]

theorem head?_dropWhile_isWord {t : Text} (h : s.dropWhile (!isWord ·) = c :: t) : isWord c := by
  have := stop_of_dropWhile (!isWord ·) s c (by rw [h]; rfl)
  simpa using this

theorem definedBy_tokens_cons (h : isWord c) (s : Text) :
    definedBy keywords (tokens (c :: s)) =
      if keywords.contains (c :: s.takeWhile isWord) && introduces (s.dropWhile isWord) then
        (nextWord s).takeWhile isNameChar ::
          definedBy keywords (tokens ((nextWord s).dropWhile isWord))
      else definedBy keywords (tokens (s.dropWhile isWord)) := by
  rw [tokens_cons_of_isWord h, ← tokens_dropWhile (s.dropWhile isWord), introduces, nextWord]
  cases hnext : (s.dropWhile isWord).dropWhile (!isWord ·) with
  | nil => simp [tokens, definedBy]
  | cons d t =>
    have hd : isWord d := head?_dropWhile_isWord hnext
    have hname : (d :: t.takeWhile isWord).takeWhile isNameChar =
        (d :: t).takeWhile isNameChar := by
      rw [← takeWhile_takeWhile (fun _ => isWord_of_isNameChar) (d :: t),
        List.takeWhile_cons_of_pos hd]
    rw [tokens_cons_of_isWord hd, definedBy, List.dropWhile_cons_of_pos hd, hname, List.head?_cons,
      List.head?_cons, Bool.and_assoc]

/-- Up to a word that begins like a name, what is no word is what is blank. -/
theorem introduces_spec (rest : Text) :
    introduces rest = (rest.dropWhile isBlank).head?.any isNameStart ∧
      (introduces rest → rest.dropWhile (!isWord ·) = rest.dropWhile isBlank) := by
  have hblank : ∀ c, isBlank c → (!isWord c) = true := fun c hc => by
    rw [not_isWord_of_isBlank hc]
    rfl
  rw [introduces, takeWhile_eq_append hblank, ← dropWhile_dropWhile hblank, List.all_append,
    List.all_takeWhile, Bool.true_and]
  cases hrest : rest.dropWhile isBlank with
  | nil => simp
  | cons c t =>
    have hc : isBlank c = false := stop_of_dropWhile isBlank rest c (by rw [hrest]; rfl)
    by_cases hw : isWord c
    · simp [hw]
    · have hstart : isNameStart c = false := by
        rw [Bool.eq_false_iff]
        exact fun hs => hw (isWord_of_isNameChar (isNameChar_of_isNameStart hs))
      simp [hw, hc, hstart]

theorem introduced?_takeWhile (s : Text) : introduced? s (s.takeWhile isWord) =
    if introduces (s.dropWhile isWord) then
      some ((nextWord s).takeWhile isNameChar, (nextWord s).dropWhile isNameChar)
    else none := by
  have hpre : (s.takeWhile isWord).isPrefixOf? s = some (s.dropWhile isWord) :=
    List.isPrefixOf?_eq_some_iff_append_eq.2 List.takeWhile_append_dropWhile
  have hhead := not_isWord_of_dropWhile s
  obtain ⟨hintro, hnext⟩ := introduces_spec (s.dropWhile isWord)
  simp only [introduced?, hpre, nextWord]
  generalize s.dropWhile isWord = rest at hhead hintro hnext
  cases hrest : rest.dropWhile isBlank with
  | nil =>
    rw [hrest] at hintro
    simp [hintro]
  | cons c t =>
    rw [hrest] at hintro hnext
    by_cases hstart : isNameStart c
    · have hc : isNameChar c := isNameChar_of_isNameStart hstart
      have htrue : introduces rest := hintro.trans hstart
      -- what follows a word is no word, so the name does not follow at once
      have hblank : rest.head?.any isBlank := by
        cases rest with
        | nil => cases hrest
        | cons b rest =>
          by_contra hb
          rw [List.dropWhile_cons_of_neg (by simpa using hb)] at hrest
          cases hrest
          have hword := hhead c rfl
          rw [isWord_of_isNameChar hc] at hword
          cases hword
      rw [if_pos hblank, if_pos htrue, hnext htrue]
      simp [hstart, hc]
    · have hfalse : introduces rest = false := by simpa [hstart] using hintro
      simp [hstart, hfalse]

theorem eq_takeWhile_of_introduced? (hk : ∀ a ∈ k, isWord a)
    (h : introduced? s k = some (name, after)) : k = s.takeWhile isWord := by
  simp only [introduced?] at h
  split at h
  · cases h
  next rest hr =>
  split at h
  case isFalse => cases h
  next hblank =>
  obtain ⟨b, t, rfl⟩ : ∃ b t, rest = b :: t := by
    cases rest with
    | nil => cases hblank
    | cons b t => exact ⟨b, t, rfl⟩
  have hb : isWord b = false := not_isWord_of_isBlank (by simpa using hblank)
  rw [eq_append_of_isPrefixOf? hr, List.takeWhile_append_of_pos hk,
    List.takeWhile_cons_of_neg (by simp [hb]), List.append_nil]

section
variable (hks : ∀ k ∈ keywords, k ≠ [] ∧ ∀ a ∈ k, isWord a)
include hks

theorem findSome?_introduced? (s : Text) : keywords.findSome? (introduced? s) =
    if keywords.contains (s.takeWhile isWord) then introduced? s (s.takeWhile isWord)
    else none := by
  refine findSome?_eq_of_unique fun k hk hsome => ?_
  obtain ⟨⟨name, after⟩, h⟩ := Option.isSome_iff_exists.1 hsome
  exact eq_takeWhile_of_introduced? (hks k hk).2 h

theorem definitionAt?_of_isWord (hleft : left.any isWord = false) (hc : isWord c) (s : Text) :
    definitionAt? keywords left (c :: s) =
      if keywords.contains (c :: s.takeWhile isWord) && introduces (s.dropWhile isWord) then
        some ((nextWord s).takeWhile isNameChar, (nextWord s).dropWhile isNameChar)
      else none := by
  have hedge : isWordEdge left (c :: s).head? := by simp [isWordEdge, hleft, hc]
  rw [definitionAt?, if_pos hedge, findSome?_introduced? hks, introduced?_takeWhile, nextWord,
    nextWord, List.takeWhile_cons_of_pos hc, List.dropWhile_cons_of_pos hc]
  cases keywords.contains (c :: s.takeWhile isWord) <;> rfl

theorem definitionAt?_eq_none (h : left.any isWord ∨ isWord c = false) (s : Text) :
    definitionAt? keywords left (c :: s) = none := by
  unfold definitionAt?
  split
  · next hedge =>
    have hc : isWord c = false := by
      rcases h with h | h
      · simpa [isWordEdge, h] using hedge
      · exact h
    rw [findSome?_introduced? hks, List.takeWhile_cons_of_neg (by simp [hc]), if_neg]
    rw [List.contains_iff_mem]
    exact fun hmem => (hks [] hmem).1 rfl
  · rfl

/-- Within a word nothing is defined, and from the end of a word on it is what the tokens define. -/
theorem definitionsFrom_eq_definedBy (left : Option Char) (s : Text) :
    definitionsFrom keywords left s =
      definedBy keywords (tokens (if left.any isWord then s.dropWhile isWord else s)) := by
  fun_induction definitionsFrom keywords left s with
  | case1 => simp [tokens, definedBy]
  | case2 left c s name after h ih =>
    -- a name ends in a word character, so the scan goes on within its word
    have hlast : name.getLast?.any isWord := by
      obtain ⟨-, -, -, -, hne, hname⟩ := definitionAt?_eq_some h
      rw [List.getLast?_eq_some_getLast hne, Option.any_some]
      exact isWord_of_isNameChar (hname _ (List.getLast_mem hne))
    cases hleft : left.any isWord with
    | true => rw [definitionAt?_eq_none hks (.inl hleft)] at h; cases h
    | false =>
      cases hc : isWord c with
      | false => rw [definitionAt?_eq_none hks (.inr hc)] at h; cases h
      | true =>
        rw [definitionAt?_of_isWord hks hleft hc, Option.ite_none_right_eq_some] at h
        obtain ⟨hcond, heq⟩ := h
        cases heq
        rw [if_pos hlast, dropWhile_dropWhile fun _ => isWord_of_isNameChar] at ih
        rw [ih, if_neg Bool.false_ne_true, definedBy_tokens_cons hc, if_pos hcond]
  | case3 left c s h ih =>
    rw [ih]
    cases hc : isWord c with
    | false =>
      rw [if_neg (by simp [hc]), List.dropWhile_cons_of_neg (by simp [hc]), ite_self,
        tokens_cons_of_not_isWord hc]
    | true =>
      rw [if_pos (by simpa using hc), List.dropWhile_cons_of_pos hc]
      cases hleft : left.any isWord with
      | true => rw [if_pos rfl]
      | false =>
        rw [definitionAt?_of_isWord hks hleft hc, ite_eq_right_iff] at h
        rw [if_neg Bool.false_ne_true, definedBy_tokens_cons hc, if_neg]
        exact fun hcond => absurd (h hcond) (by simp)

end

/-- **Definitions are found word by word**, if the keywords are words. -/
theorem definitions_eq_definedBy (h : ∀ k ∈ x.keywords, k ≠ [] → ∀ a ∈ k, isWord a) (s : Text) :
    (tokens s).map (·.word) = s.words ∧
      s.takeWhile (!isWord ·) ++ ((tokens s).flatMap fun t => t.word ++ t.gap) = s ∧
      definitions x s = definedBy x.keywords (tokens s) := by
  refine ⟨map_word_tokens s, append_tokens s, ?_⟩
  have hks : ∀ k ∈ x.keywords.filter (· ≠ []), k ≠ [] ∧ ∀ a ∈ k, isWord a := by
    intro k hk
    obtain ⟨hmem, hne⟩ := List.mem_filter.1 hk
    have hne : k ≠ [] := by simpa using hne
    exact ⟨hne, h k hmem hne⟩
  rw [definitions, definitionsFrom_eq_definedBy hks]
  refine definedBy_congr fun t ht => ?_
  rw [Bool.eq_iff_iff, List.contains_iff_mem, List.contains_iff_mem, List.mem_filter]
  simp [word_ne_nil ht]

/-- A lexicon in which one keyword begins like another, and one is empty. -/
def kinLexicon : Lexicon :=
  { blockOpen := [], blockClose := [], docLine := [], lineComment := [], modifiers := [],
    keywords := [[], ['k', 'i'], ['k', 'i', 'n']] }

/-- A keyword that is taken for a name, and a name at the front of a longer word. -/
def kinText : Text := "ki kin;kin Té\nskin U".toList

set_option maxRecDepth 20000 in
theorem definitions_kinText :
    (∀ k ∈ kinLexicon.keywords, k ≠ [] → ∀ a ∈ k, isWord a) ∧
      (tokens kinText).map (·.word) = kinText.words ∧
      definitions kinLexicon kinText = definedBy kinLexicon.keywords (tokens kinText) ∧
      definitions kinLexicon kinText = [['k', 'i', 'n'], ['T']] := by
  have hall : kinLexicon.keywords.all (·.all isWord) := by decide
  have hks : ∀ k ∈ kinLexicon.keywords, k ≠ [] → ∀ a ∈ k, isWord a :=
    fun k hk _ => List.all_eq_true.1 (List.all_eq_true.1 hall k hk)
  obtain ⟨hwords, -, hdefs⟩ := definitions_eq_definedBy hks kinText
  have hnames : definedBy kinLexicon.keywords (tokens kinText) = [['k', 'i', 'n'], ['T']] := by cbv
  exact ⟨hks, hwords, hdefs, hdefs.trans hnames⟩

end Symbol

end Declutter
