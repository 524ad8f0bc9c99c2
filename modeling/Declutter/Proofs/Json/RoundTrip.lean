import Mathlib.Data.List.Forall2
import Declutter.Proofs.Json.Reader
import Declutter.Proofs.Text.Pieces

/-!
# Written and read again

`read?_pretty`: what is laid out as JSON reads back as the value that was laid out. Two relations
carry this through the parts of a value. `Lexes s ts`: the text `s` is cut into the tokens `ts`,
whatever follows it, as long as that cannot be taken for more of a number. `Reads ts v`: the machine
reads the value `v` off the tokens `ts`, whatever is open.

Escapes are undone one character at a time (`character?_escape`). A number ends where no digit,
point or exponent follows (`number?_toDigits`). Lists and objects are laid out by the same function,
and their items are told apart by commas (`lexes_enclose`, `reads_list`, `reads_object`).
-/

namespace Declutter.Json

variable {c : Char} {s t rest : Text} {us ts : List Token}

/-! ## Texts -/

theorem code?_hexPair {n : Nat} (h : n < 0x20) (s : Text) :
    code? ('0' :: '0' :: (hexPair n ++ s)) = some (n, s) := by
  have hdigits : ∀ n < 0x20, Text.isNumeral 16 ('0' :: '0' :: hexPair n) ∧
      Text.value 16 ('0' :: '0' :: hexPair n) = n := by decide
  obtain ⟨hnumeral, hvalue⟩ := hdigits n h
  have htake : ('0' :: '0' :: (hexPair n ++ s)).take 4 = '0' :: '0' :: hexPair n := rfl
  have hdrop : ('0' :: '0' :: (hexPair n ++ s)).drop 4 = s := rfl
  rw [code?, htake, hdrop, if_pos ⟨rfl, hnumeral⟩, hvalue]

theorem character?_control {c : Char} (h : c.toNat < 0x20) (s : Text) :
    character? ('\\' :: 'u' :: '0' :: '0' :: (hexPair c.toNat ++ s)) = some (c, s) := by
  have hlow : c.toNat < 0xD800 ∨ 0xE000 ≤ c.toNat := by omega
  show coded? ('0' :: '0' :: (hexPair c.toNat ++ s)) = some (c, s)
  rw [coded?, code?_hexPair h, Option.bind_some]
  simp only [if_pos hlow, Char.ofNat_toNat]

/-- **An escaped character** is read as itself. -/
theorem character?_escape (c : Char) (s : Text) : character? (escape c ++ s) = some (c, s) := by
  unfold escape
  split_ifs with hquote hslash hback htab hfeed hpage hreturn hcontrol
  · rw [eq_of_beq hquote]; rfl
  · rw [eq_of_beq hslash]; rfl
  · rw [eq_of_beq hback]; rfl
  · rw [eq_of_beq htab]; rfl
  · rw [eq_of_beq hfeed]; rfl
  · rw [eq_of_beq hpage]; rfl
  · rw [eq_of_beq hreturn]; rfl
  · exact character?_control hcontrol s
  · show character? (c :: s) = some (c, s)
    simp [character?, hquote, hslash, hcontrol]

theorem string?_of_character? (h : character? s = some (c, rest)) :
    string? s = (string? rest).map fun (t, after) => (c :: t, after) := by
  have hquote : (s.head? == some '"') = false := by
    rw [beq_eq_false_iff_ne]
    intro hhead
    obtain ⟨s', rfl⟩ := List.head?_eq_some_iff.1 hhead
    cases h
  rw [string?, hquote, if_neg Bool.false_ne_true]
  split
  · next hnone => rw [h] at hnone; cases hnone
  · next hsome => rw [h] at hsome; cases hsome; rfl

theorem string?_flatMap (t rest : Text) :
    string? (t.flatMap escape ++ '"' :: rest) = some (t, rest) := by
  induction t with
  | nil => rw [string?]; rfl
  | cons c t ih =>
    rw [List.flatMap_cons, List.append_assoc, string?_of_character? (character?_escape c _), ih]
    rfl

/-! ## Numbers -/

/-- Nothing at the front of a text can be taken for more of a number. -/
def Stops (s : Text) : Prop := ∀ c ∈ s.head?, c.isDigit = false ∧ c ≠ '.' ∧ c ≠ 'e' ∧ c ≠ 'E'

theorem value_of_isDigit {digits : Text} (h : ∀ c ∈ digits, c.isDigit) :
    Text.value 10 digits = Nat.ofDigitChars 10 digits 0 := by
  unfold Text.value Nat.ofDigitChars
  refine List.foldl_ext _ _ _ fun n c hc => ?_
  rw [hexDigit?, if_pos (h c hc)]
  rfl

/-- No zero stands in front of other digits. -/
theorem head?_toDigits {n : Nat} (hn : n ≠ 0) : (Nat.toDigits 10 n).head? ≠ some '0' := by
  induction n using Nat.strongRecOn with
  | ind n ih =>
    by_cases hlt : n < 10
    · rw [Nat.toDigits_of_lt_base hlt]
      have hall : ∀ n < 10, n ≠ 0 → [Nat.digitChar n].head? ≠ some '0' := by decide
      exact hall n hlt hn
    · have hdiv := ih (n / 10) (by omega) (by omega)
      rw [Nat.toDigits_of_base_le (by decide) (by omega)]
      rwa [List.head?_append_of_ne_nil _ Nat.toDigits_ne_nil]

theorem digits?_append {digits : Text} (hne : digits ≠ []) (hdigits : ∀ c ∈ digits, c.isDigit)
    (h : Stops rest) : digits? (digits ++ rest) = some (digits, rest) := by
  have hstop : ∀ c ∈ rest.head?, c.isDigit = false := fun c hc => (h c hc).1
  rw [digits?, Text.takeWhile_of_stop hdigits hstop, Text.dropWhile_of_stop hdigits hstop,
    if_neg hne]

theorem fraction?_of_stops (h : Stops s) : fraction? s = some ([], s) := by
  rw [fraction?, if_neg]
  intro hpoint
  exact (h '.' (eq_of_beq hpoint)).2.1 rfl

theorem exponent?_of_stops (h : Stops s) : exponent? s = some (0, s) := by
  rw [exponent?, if_neg]
  intro he
  rcases Bool.or_eq_true_iff.1 he with he | he
  · exact (h 'e' (eq_of_beq he)).2.2.1 rfl
  · exact (h 'E' (eq_of_beq he)).2.2.2 rfl

/-- **A natural number** is read as itself, if nothing that follows belongs to it. -/
theorem number?_toDigits (n : Nat) (h : Stops rest) :
    number? (Nat.toDigits 10 n ++ rest) = some (.number n 0, rest) := by
  have hdigits : ∀ c ∈ Nat.toDigits 10 n, c.isDigit := fun c hc =>
    Nat.isDigit_of_mem_toDigits (by decide) (by decide) hc
  have hsign : ((Nat.toDigits 10 n ++ rest).head? == some '-') = false := by
    rw [List.head?_append_of_ne_nil _ Nat.toDigits_ne_nil, beq_eq_false_iff_ne]
    intro hminus
    exact absurd (hdigits '-' (List.mem_of_mem_head? hminus)) (by decide)
  have hzero :
      ((Nat.toDigits 10 n).head? == some '0' && (Nat.toDigits 10 n).length ≠ 1) = false := by
    by_cases hn : n = 0
    · subst hn
      rfl
    · rw [beq_eq_false_iff_ne.2 (head?_toDigits hn), Bool.false_and]
  have hvalue : Text.value 10 (Nat.toDigits 10 n) = n := by
    rw [value_of_isDigit hdigits, Nat.ofDigitChars_toDigits (by decide) (by decide)]
  simp only [number?, hsign, Bool.false_eq_true, if_false,
    digits?_append Nat.toDigits_ne_nil hdigits h, Option.bind_some, fraction?_of_stops h,
    exponent?_of_stops h, hzero, List.append_nil, hvalue]
  rfl

/-! ## Tokens -/

/-- A text is cut into tokens, whatever follows it but more of a number. -/
def Lexes (s : Text) (ts : List Token) : Prop :=
  ∀ rest us, Stops rest → tokens? rest = some us → tokens? (s ++ rest) = some (ts ++ us)

theorem tokens?_space (hc : isSpace c) (s : Text) : tokens? (c :: s) = tokens? s := by
  rw [tokens?, if_pos hc]

theorem tokens?_token {x : Token} (hc : isSpace c = false) (h : token? (c :: s) = some (x, rest))
    (hrest : tokens? rest = some us) : tokens? (c :: s) = some (x :: us) := by
  rw [tokens?, if_neg (by simp [hc])]
  split
  · next hnone => rw [h] at hnone; cases hnone
  · next hsome =>
    rw [h] at hsome
    cases hsome
    rw [hrest]
    rfl

theorem tokens?_newLine (depth : Nat) (s : Text) : tokens? (newLine depth ++ s) = tokens? s := by
  have hblanks : ∀ n, tokens? (List.replicate n ' ' ++ s) = tokens? s := by
    intro n
    induction n with
    | zero => rfl
    | succ n ih => rw [List.replicate_succ, List.cons_append, tokens?_space (by decide), ih]
  rw [newLine, List.cons_append, tokens?_space (by decide), hblanks]

theorem tokens?_mark {m : Mark} (hm : Mark.ofChar? c = some m) (h : tokens? s = some us) :
    tokens? (c :: s) = some (.mark m :: us) := by
  refine tokens?_token ?_ (by rw [token?, hm]) h
  rw [Bool.eq_false_iff]
  intro hc
  simp only [isSpace, Bool.or_eq_true, beq_iff_eq] at hc
  rcases hc with ((rfl | rfl) | rfl) | rfl <;> cases hm

theorem lexes_quote (t : Text) : Lexes (quote t) [.scalar (.text t)] := by
  intro rest us _ h
  have htoken : token? ('"' :: (t.flatMap escape ++ '"' :: rest)) =
      some (.scalar (.text t), rest) := by
    show (string? (t.flatMap escape ++ '"' :: rest)).map _ = _
    rw [string?_flatMap]
    rfl
  rw [quote, List.append_assoc]
  exact tokens?_token (by decide) htoken h

theorem token?_of_isDigit (hc : c.isDigit) {x : Scalar} (h : number? (c :: s) = some (x, rest)) :
    isSpace c = false ∧ token? (c :: s) = some (.scalar x, rest) := by
  have hne : ∀ d : Char, d.isDigit = false → (c == d) = false := by
    intro d hd
    rw [beq_eq_false_iff_ne]
    intro heq
    rw [heq, hd] at hc
    cases hc
  have hmark : Mark.ofChar? c = none := by
    simp [Mark.ofChar?, hne '[' rfl, hne ']' rfl, hne '{' rfl, hne '}' rfl, hne ',' rfl,
      hne ':' rfl]
  constructor
  · simp [isSpace, hne ' ' rfl, hne '\t' rfl, hne '\n' rfl, hne '\r' rfl]
  · rw [token?, hmark]
    simp [hne '"' rfl, h]

theorem lexes_number (n : Nat) : Lexes (Nat.toDigits 10 n) [.scalar (.number n 0)] := by
  intro rest us hstops h
  have hnumber := number?_toDigits n hstops
  obtain ⟨c, s, hdigits⟩ := List.exists_cons_of_ne_nil (Nat.toDigits_ne_nil (n := n) (b := 10))
  have hc : c.isDigit := by
    refine Nat.isDigit_of_mem_toDigits (b := 10) (n := n) (by decide) (by decide) ?_
    rw [hdigits]
    exact List.mem_cons_self ..
  rw [hdigits, List.cons_append] at hnumber ⊢
  obtain ⟨hspace, htoken⟩ := token?_of_isDigit hc hnumber
  exact tokens?_token hspace htoken h

/-! ## Items -/

section
variable {items : List Text} {tss : List (List Token)}

theorem intercalate_cons {α : Type} (sep l : List α) (ls : List (List α)) :
    sep.intercalate (l :: ls) = l ++ ls.flatMap (sep ++ ·) := by
  induction ls generalizing l with
  | nil => simp
  | cons l' ls ih =>
    rw [List.intercalate_cons_cons, ih, List.flatMap_cons, List.append_assoc, List.append_assoc]

/-- What is laid out behind the first item, and what follows. -/
def moreItems (depth : Nat) (right : Char) (items : List Text) (rest : Text) : Text :=
  items.flatMap (',' :: newLine (depth + 1) ++ ·) ++ (newLine depth ++ right :: rest)

theorem moreItems_cons (depth : Nat) (right : Char) (item : Text) (items : List Text)
    (rest : Text) : moreItems depth right (item :: items) rest =
      ',' :: (newLine (depth + 1) ++ (item ++ moreItems depth right items rest)) := by
  simp [moreItems]

theorem enclose_cons (left right : Char) (depth : Nat) (item : Text) (items : List Text)
    (rest : Text) : enclose left right depth (item :: items) ++ rest =
      left :: (newLine (depth + 1) ++ (item ++ moreItems depth right items rest)) := by
  rw [enclose, if_neg (by simp), intercalate_cons]
  simp [moreItems]

/-- More items, and the end of a list, cannot be taken for more of a number. -/
theorem stops_moreItems (depth : Nat) (right : Char) (items : List Text) (rest : Text) :
    Stops (moreItems depth right items rest) := by
  intro c hc
  cases items with
  | nil =>
    obtain rfl : '\n' = c := by simpa [moreItems, newLine] using hc
    decide
  | cons item items =>
    obtain rfl : ',' = c := by simpa [moreItems_cons] using hc
    decide

/-- An item on a line of its own. -/
theorem tokens?_item {item : Text} {depth : Nat} {right : Char} (hitem : Lexes item ts)
    (h : tokens? (moreItems depth right items rest) = some us) :
    tokens? (newLine (depth + 1) ++ (item ++ moreItems depth right items rest)) =
      some (ts ++ us) := by
  rw [tokens?_newLine]
  exact hitem _ _ (stops_moreItems depth right items rest) h

theorem tokens?_moreItems {right : Char} {r : Mark} (hright : Mark.ofChar? right = some r)
    (depth : Nat) (h : List.Forall₂ Lexes items tss) (hrest : tokens? rest = some us) :
    tokens? (moreItems depth right items rest) =
      some (tss.flatMap (.mark .comma :: ·) ++ .mark r :: us) := by
  induction h with
  | nil =>
    rw [moreItems, List.flatMap_nil, List.nil_append, tokens?_newLine, tokens?_mark hright hrest]
    rfl
  | cons hitem _ ih =>
    rw [moreItems_cons, tokens?_mark rfl (tokens?_item hitem ih)]
    simp

/-- The tokens of items between marks. -/
def enclosed (left right : Mark) (tss : List (List Token)) : List Token :=
  .mark left :: ([.mark .comma].intercalate tss ++ [.mark right])

theorem enclosed_cons (left right : Mark) (ts : List Token) (tss : List (List Token)) :
    enclosed left right (ts :: tss) =
      .mark left :: (ts ++ (tss.flatMap (.mark .comma :: ·) ++ [.mark right])) := by
  rw [enclosed, intercalate_cons, List.append_assoc]
  rfl

/-- **Items between brackets** are cut into theirs, with commas between. -/
theorem lexes_enclose {left right : Char} {l r : Mark} (hleft : Mark.ofChar? left = some l)
    (hright : Mark.ofChar? right = some r) (depth : Nat) (h : List.Forall₂ Lexes items tss) :
    Lexes (enclose left right depth items) (enclosed l r tss) := by
  intro rest us _ hrest
  cases h with
  | nil => exact tokens?_mark hleft (tokens?_mark hright hrest)
  | cons hitem h =>
    have hmore := tokens?_moreItems hright depth h hrest
    rw [enclose_cons, enclosed_cons, tokens?_mark hleft (tokens?_item hitem hmore)]
    simp

end

/-! ## The machine -/

section
variable {x y : State} {v : Value} {vs : List Value} {tss : List (List Token)}
  {members : List (Text × Value)}

theorem run?_cons {t : Token} (h : x.step? t = some y) (ts : List Token) :
    x.run? (t :: ts) = y.run? ts := by
  rw [State.run?, List.foldlM_cons, h]
  rfl

theorem run?_append (h : x.run? ts = some y) (us : List Token) :
    x.run? (ts ++ us) = y.run? us := by
  rw [State.run?, List.foldlM_append, ← State.run?, h]
  rfl

/-- The machine reads a value off tokens, whatever is open. -/
def Reads (ts : List Token) (v : Value) : Prop :=
  ∀ frames, State.run? (.value frames) ts = some (.after frames v)

/-- The machine reads a key, a colon and a value off tokens. -/
def ReadsMember (ts : List Token) (m : Text × Value) : Prop :=
  ∃ us, ts = .scalar (.text m.1) :: .mark .colon :: us ∧ Reads us m.2

theorem reads_scalar (x : Scalar) : Reads [.scalar x] (.scalar x) := fun _ => rfl

/-- What can be read as a value can be read as the first item of a list. -/
theorem Reads.firstItem (h : Reads ts v) (frames : List Frame) :
    State.run? (.firstItem frames) ts = some (.after (.list [] :: frames) v) := by
  have hitem := h (.list [] :: frames)
  cases ts with
  | nil => cases hitem
  | cons t ts =>
    have hstep : State.step? (.firstItem frames) t =
        State.step? (.value (.list [] :: frames)) t := by
      cases t with
      | scalar x => rfl
      | mark m =>
        cases m with
        | listClose => cases hitem  -- the end of a list does not begin a value
        | _ => rfl
    rw [State.run?, List.foldlM_cons, hstep, ← List.foldlM_cons]
    exact hitem

/-- From where its key may stand, a member is read up to the end of its value. -/
theorem run?_member {m : Text × Value} {frames : List Frame} {before : List (Text × Value)}
    (h : ReadsMember ts m)
    (hkey : x.step? (.scalar (.text m.1)) = some (.colon frames before m.1)) :
    x.run? ts = some (.after (.object before m.1 :: frames) m.2) := by
  obtain ⟨us, rfl, hus⟩ := h
  rw [run?_cons hkey, run?_cons rfl]
  exact hus _

/-- What follows an item of a list: more of them, each after a comma, and the end. -/
theorem run?_items (h : List.Forall₂ Reads tss vs) (frames : List Frame) (items : List Value)
    (v : Value) :
    State.run? (.after (.list items :: frames) v)
      (tss.flatMap (.mark .comma :: ·) ++ [.mark .listClose]) =
        some (.after frames (.list (items ++ v :: vs))) := by
  induction h generalizing items v with
  | nil => rfl
  | @cons ts w tss vs hts _ ih =>
    rw [List.flatMap_cons, List.cons_append, List.cons_append, List.append_assoc, run?_cons rfl,
      run?_append (hts _), ih, List.append_assoc]
    rfl

/-- What follows a member of an object: more of them, each after a comma, and the end. -/
theorem run?_members (h : List.Forall₂ ReadsMember tss members) (frames : List Frame)
    (before : List (Text × Value)) (key : Text) (v : Value) :
    State.run? (.after (.object before key :: frames) v)
      (tss.flatMap (.mark .comma :: ·) ++ [.mark .objectClose]) =
        some (.after frames (.object (before ++ (key, v) :: members))) := by
  induction h generalizing before key v with
  | nil => rfl
  | @cons ts m tss members hts _ ih =>
    rw [List.flatMap_cons, List.cons_append, List.cons_append, List.append_assoc, run?_cons rfl,
      run?_append (run?_member hts rfl), ih, List.append_assoc]
    rfl

/-- **Items between brackets** are read as a list. -/
theorem reads_list (h : List.Forall₂ Reads tss vs) :
    Reads (enclosed .listOpen .listClose tss) (.list vs) := by
  intro frames
  cases h with
  | nil => rfl
  | cons hts h =>
    rw [enclosed_cons, run?_cons rfl, run?_append (hts.firstItem frames), run?_items h]
    rfl

/-- **Members between braces** are read as an object. -/
theorem reads_object (h : List.Forall₂ ReadsMember tss members) :
    Reads (enclosed .objectOpen .objectClose tss) (.object members) := by
  intro frames
  cases h with
  | nil => rfl
  | cons hts h =>
    rw [enclosed_cons, run?_cons rfl, run?_append (run?_member hts rfl), run?_members h]
    rfl

end

/-! ## Values -/

mutual

/-- What is laid out, as a value. -/
def value : Json → Value
  | .text s => .text s
  | .number n => .natural n
  | .list items => .list (itemValues items)
  | .object members => .object (memberValues members)

def itemValues : List Json → List Value
  | [] => []
  | j :: js => value j :: itemValues js

def memberValues : List (Text × Json) → List (Text × Value)
  | [] => []
  | (k, j) :: ms => (k, value j) :: memberValues ms

end

/-- A text is cut into tokens that stand in the relation `R` to `a`. -/
def Writes {α : Type} (R : List Token → α → Prop) (s : Text) (a : α) : Prop :=
  ∃ ts, Lexes s ts ∧ R ts a

theorem Writes.items {α : Type} {R : List Token → α → Prop} {texts : List Text} {as : List α}
    (h : List.Forall₂ (Writes R) texts as) :
    ∃ tss, List.Forall₂ Lexes texts tss ∧ List.Forall₂ R tss as := by
  induction h with
  | nil => exact ⟨[], .nil, .nil⟩
  | cons ha _ ih =>
    obtain ⟨ts, hlexes, hR⟩ := ha
    obtain ⟨tss, hlexess, hRs⟩ := ih
    exact ⟨ts :: tss, .cons hlexes hlexess, .cons hR hRs⟩

theorem writes_member {depth : Nat} {k : Text} {j : Json} {v : Value}
    (h : Writes Reads (render depth j) v) :
    Writes ReadsMember (quote k ++ [':', ' '] ++ render depth j) (k, v) := by
  obtain ⟨ts, hlexes, hreads⟩ := h
  refine ⟨.scalar (.text k) :: .mark .colon :: ts, ?_, ts, rfl, hreads⟩
  intro rest us hstops hrest
  have hvalue : tokens? (' ' :: (render depth j ++ rest)) = some (ts ++ us) := by
    rw [tokens?_space (by decide), hlexes rest us hstops hrest]
  have hcolon : Stops (':' :: ' ' :: (render depth j ++ rest)) := by
    intro c hc
    obtain rfl : ':' = c := by simpa using hc
    decide
  rw [List.append_assoc, List.append_assoc]
  exact lexes_quote k _ _ hcolon (tokens?_mark rfl hvalue)

mutual

theorem writes_render (depth : Nat) : ∀ j : Json, Writes Reads (render depth j) j.value
  | .text s => ⟨_, lexes_quote s, reads_scalar _⟩
  | .number n => ⟨_, lexes_number n, reads_scalar _⟩
  | .list items => by
    obtain ⟨tss, hlexes, hreads⟩ := Writes.items (writes_renderItems (depth + 1) items)
    rw [render, value]
    exact ⟨_, lexes_enclose rfl rfl depth hlexes, reads_list hreads⟩
  | .object members => by
    obtain ⟨tss, hlexes, hreads⟩ := Writes.items (writes_renderMembers (depth + 1) members)
    rw [render, value]
    exact ⟨_, lexes_enclose rfl rfl depth hlexes, reads_object hreads⟩

theorem writes_renderItems (depth : Nat) :
    ∀ js : List Json, List.Forall₂ (Writes Reads) (renderItems depth js) (itemValues js)
  | [] => .nil
  | j :: js => .cons (writes_render depth j) (writes_renderItems depth js)

theorem writes_renderMembers (depth : Nat) : ∀ ms : List (Text × Json),
    List.Forall₂ (Writes ReadsMember) (renderMembers depth ms) (memberValues ms)
  | [] => .nil
  | (_, j) :: ms => .cons (writes_member (writes_render depth j)) (writes_renderMembers depth ms)

end

theorem itemValues_eq (js : List Json) : itemValues js = js.map value := by
  induction js with
  | nil => rfl
  | cons j js ih => rw [itemValues, ih, List.map_cons]

/-- **What is laid out as JSON** is read as the value that was laid out. -/
theorem read?_pretty (j : Json) : read? j.pretty = some j.value := by
  obtain ⟨ts, hlexes, hreads⟩ := writes_render 0 j
  have htokens : tokens? j.pretty = some ts := by
    have := hlexes [] [] nofun (by rw [tokens?])
    rwa [List.append_nil, List.append_nil] at this
  rw [read?, htokens, Option.bind_some, hreads]
  rfl

end Declutter.Json
