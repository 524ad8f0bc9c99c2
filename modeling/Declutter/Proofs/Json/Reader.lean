import Declutter.Json
import Declutter.Text.Numeral

/-!
# Reading JSON

A reader for all of JSON, not only for what reports are made of. A text is cut into tokens
(`tokens?`): marks, texts, numbers and the three words, with white space between. A machine with a
stack of open lists and objects reads the tokens one by one (`State.step?`).

A number is read as `mantissa · 10 ^ exponent`, exactly. A character may be written as two
surrogates; one surrogate alone is refused, since no text has it. Members of an object stay in
order.
-/

namespace Declutter.Json

/-! ## Values -/

/-- A value that has no parts. -/
inductive Scalar where
  | null
  | bool (b : Bool)
  | number (mantissa exponent : Int)
  | text (s : Text)
  deriving DecidableEq, Repr

/-- Any JSON value. -/
inductive Value where
  | scalar (x : Scalar)
  | list (items : List Value)
  | object (members : List (Text × Value))

/-- A text as a value. -/
def Value.text (s : Text) : Value := .scalar (.text s)

/-- A natural number as a value. -/
def Value.natural (n : Nat) : Value := .scalar (.number n 0)

/-! ## Texts -/

/-- The number that four hexadecimal digits write, and what follows them. -/
def code? (s : Text) : Option (Nat × Text) :=
  if (s.take 4).length = 4 ∧ Text.isNumeral 16 (s.take 4) then
    some (Text.value 16 (s.take 4), s.drop 4)
  else none

/-- A character that is given by its number, or by those of two surrogates. -/
def coded? (s : Text) : Option (Char × Text) :=
  (code? s).bind fun (n, rest) =>
    if n < 0xD800 ∨ 0xE000 ≤ n then some (Char.ofNat n, rest)
    else
      (['\\', 'u'].isPrefixOf? rest).bind fun rest =>
        (code? rest).bind fun (m, rest) =>
          if n < 0xDC00 ∧ 0xDC00 ≤ m ∧ m < 0xE000 then
            some (Char.ofNat (0x10000 + (n - 0xD800) * 0x400 + (m - 0xDC00)), rest)
          else none

/-- What a character behind a backslash stands for. -/
def unescape? (c : Char) : Option Char :=
  if c == '"' || c == '\\' || c == '/' then some c
  else if c == 'b' then some '\x08'
  else if c == 'f' then some '\x0c'
  else if c == 'n' then some '\n'
  else if c == 'r' then some '\r'
  else if c == 't' then some '\t'
  else none

/-- The character that is written behind a backslash, and what follows it. -/
def escaped? : Text → Option (Char × Text)
  | [] => none
  | c :: s => if c == 'u' then coded? s else (unescape? c).map (·, s)

/-- The first character of a text between quotes, and what follows it. -/
def character? : Text → Option (Char × Text)
  | [] => none
  | c :: s =>
    if c == '\\' then escaped? s
    else if c == '"' || c.toNat < 0x20 then none
    else some (c, s)

theorem length_of_code? {s rest : Text} {n : Nat} (h : code? s = some (n, rest)) :
    rest.length ≤ s.length := by
  unfold code? at h
  split at h
  · cases h
    simp
  · cases h

theorem length_of_coded? {s rest : Text} {c : Char} (h : coded? s = some (c, rest)) :
    rest.length ≤ s.length := by
  obtain ⟨⟨n, s₁⟩, hn, h⟩ := Option.bind_eq_some_iff.1 h
  have hle := length_of_code? hn
  dsimp only at h
  split at h
  · obtain rfl := (Prod.mk.inj (Option.some.inj h)).2
    exact hle
  obtain ⟨s₂, hs₂, h⟩ := Option.bind_eq_some_iff.1 h
  obtain ⟨⟨m, s₃⟩, hm, h⟩ := Option.bind_eq_some_iff.1 h
  have hle' := length_of_code? hm
  rw [Text.eq_append_of_isPrefixOf? hs₂, List.length_append] at hle
  dsimp only at h
  split at h
  · obtain rfl := (Prod.mk.inj (Option.some.inj h)).2
    omega
  · cases h

theorem length_of_escaped? {s rest : Text} {c : Char} (h : escaped? s = some (c, rest)) :
    rest.length ≤ s.length := by
  cases s with
  | nil => cases h
  | cons d s =>
    rw [escaped?] at h
    split at h
    · exact Nat.le_succ_of_le (length_of_coded? h)
    · obtain ⟨_, -, heq⟩ := Option.map_eq_some_iff.1 h
      cases heq
      exact Nat.le_succ _

theorem length_lt_of_character? {s rest : Text} {c : Char} (h : character? s = some (c, rest)) :
    rest.length < s.length := by
  cases s with
  | nil => cases h
  | cons d s =>
    rw [character?] at h
    split at h
    · exact Nat.lt_succ_of_le (length_of_escaped? h)
    split at h
    · cases h
    · cases h
      exact Nat.lt_succ_self _

/-- The text up to the closing quote, and what follows that. -/
def string? (s : Text) : Option (Text × Text) :=
  if s.head? == some '"' then some ([], s.tail)
  else
    match _h : character? s with
    | none => none
    | some (c, rest) => (string? rest).map fun (t, after) => (c :: t, after)
termination_by s.length
decreasing_by exact length_lt_of_character? _h

/-! ## Numbers and words -/

/-- One or more decimal digits, and what follows them. -/
def digits? (s : Text) : Option (Text × Text) :=
  if s.takeWhile Char.isDigit = [] then none
  else some (s.takeWhile Char.isDigit, s.dropWhile Char.isDigit)

/-- The digits behind a point, if there is one. -/
def fraction? (s : Text) : Option (Text × Text) :=
  if s.head? == some '.' then digits? s.tail else some ([], s)

/-- A number with its sign. -/
def signed (negative : Bool) (n : Nat) : Int := if negative then -n else n

/-- The power of ten behind an `e`, if there is one. -/
def exponent? (s : Text) : Option (Int × Text) :=
  if s.head? == some 'e' || s.head? == some 'E' then
    let sign := s.tail.head?
    (digits? (if sign == some '-' || sign == some '+' then s.tail.tail else s.tail)).map
      fun (power, rest) => (signed (sign == some '-') (Text.value 10 power), rest)
  else some (0, s)

/-- A number, and what follows it. There are no zeros in front of other digits. -/
def number? (s : Text) : Option (Scalar × Text) :=
  let negative := s.head? == some '-'
  (digits? (if negative then s.tail else s)).bind fun (whole, s) =>
    (fraction? s).bind fun (part, s) =>
      (exponent? s).bind fun (power, s) =>
        if whole.head? == some '0' && whole.length ≠ 1 then none
        else
          let mantissa := signed negative (Text.value 10 (whole ++ part))
          some (.number mantissa (power - part.length), s)

/-- The words of JSON, and what they mean. -/
def words : List (Text × Scalar) :=
  [("null".toList, .null), ("true".toList, .bool true), ("false".toList, .bool false)]

/-- A word, and what follows it. -/
def word? (s : Text) : Option (Scalar × Text) :=
  words.findSome? fun (w, x) => (w.isPrefixOf? s).map (x, ·)

theorem length_lt_of_digits? {s d rest : Text} (h : digits? s = some (d, rest)) :
    rest.length < s.length := by
  unfold digits? at h
  split at h
  · cases h
  · next hne =>
    obtain ⟨-, rfl⟩ := Prod.mk.inj (Option.some.inj h)
    have hlen := congrArg List.length (List.takeWhile_append_dropWhile (p := Char.isDigit) (l := s))
    have := List.length_pos_iff.2 hne
    rw [List.length_append] at hlen
    omega

theorem length_of_fraction? {s d rest : Text} (h : fraction? s = some (d, rest)) :
    rest.length ≤ s.length := by
  unfold fraction? at h
  split at h
  · have := length_lt_of_digits? h
    rw [List.length_tail] at this
    omega
  · cases h
    exact Nat.le_refl _

theorem length_of_exponent? {s rest : Text} {power : Int} (h : exponent? s = some (power, rest)) :
    rest.length ≤ s.length := by
  unfold exponent? at h
  split at h
  · obtain ⟨⟨d, s₁⟩, hd, heq⟩ := Option.map_eq_some_iff.1 h
    obtain ⟨-, rfl⟩ := Prod.mk.inj heq
    have := length_lt_of_digits? hd
    split at this <;> simp only [List.length_tail] at this <;> omega
  · cases h
    exact Nat.le_refl _

theorem length_lt_of_number? {s rest : Text} {x : Scalar} (h : number? s = some (x, rest)) :
    rest.length < s.length := by
  obtain ⟨⟨whole, s₁⟩, h₁, h⟩ := Option.bind_eq_some_iff.1 h
  obtain ⟨⟨part, s₂⟩, h₂, h⟩ := Option.bind_eq_some_iff.1 h
  obtain ⟨⟨power, s₃⟩, h₃, h⟩ := Option.bind_eq_some_iff.1 h
  have hwhole : s₁.length < s.length := by
    have := length_lt_of_digits? h₁
    split at this
    · rw [List.length_tail] at this
      omega
    · exact this
  have hpart := length_of_fraction? h₂
  have hpower := length_of_exponent? h₃
  dsimp only at h
  split at h
  · cases h
  · obtain ⟨-, rfl⟩ := Prod.mk.inj (Option.some.inj h)
    omega

theorem length_lt_of_word? {s rest : Text} {x : Scalar} (h : word? s = some (x, rest)) :
    rest.length < s.length := by
  have hne : ∀ w ∈ words, w.1 ≠ [] := by decide
  obtain ⟨⟨w, y⟩, hw, h⟩ := List.exists_of_findSome?_eq_some h
  obtain ⟨rest', hrest, heq⟩ := Option.map_eq_some_iff.1 h
  obtain ⟨-, rfl⟩ := Prod.mk.inj heq
  have : 0 < w.length := List.length_pos_iff.2 (hne _ hw)
  rw [Text.eq_append_of_isPrefixOf? hrest, List.length_append]
  omega

/-! ## Tokens -/

/-- The marks between and around values. -/
inductive Mark where
  | listOpen
  | listClose
  | objectOpen
  | objectClose
  | comma
  | colon
  deriving DecidableEq, Repr

/-- The mark that a character is. -/
def Mark.ofChar? (c : Char) : Option Mark :=
  if c == '[' then some .listOpen
  else if c == ']' then some .listClose
  else if c == '{' then some .objectOpen
  else if c == '}' then some .objectClose
  else if c == ',' then some .comma
  else if c == ':' then some .colon
  else none

/-- A mark, or a value without parts. -/
inductive Token where
  | mark (m : Mark)
  | scalar (x : Scalar)
  deriving DecidableEq, Repr

/-- The token at the front of a text, and what follows it. -/
def token? : Text → Option (Token × Text)
  | [] => none
  | c :: s =>
    match Mark.ofChar? c with
    | some m => some (.mark m, s)
    | none =>
      if c == '"' then (string? s).map fun (t, rest) => (.scalar (.text t), rest)
      else ((number? (c :: s)).or (word? (c :: s))).map fun (x, rest) => (.scalar x, rest)

/-- White space between tokens. -/
def isSpace (c : Char) : Bool := c == ' ' || c == '\t' || c == '\n' || c == '\r'

theorem length_lt_of_string? {s t rest : Text} (h : string? s = some (t, rest)) :
    rest.length < s.length := by
  fun_induction string? s generalizing t rest with
  | case1 s hquote =>
    cases s with
    | nil => cases hquote
    | cons c s =>
      cases h
      exact Nat.lt_succ_self _
  | case2 => cases h
  | case3 s _ c s₁ hc ih =>
    obtain ⟨⟨t', rest'⟩, ht, heq⟩ := Option.map_eq_some_iff.1 h
    obtain ⟨-, rfl⟩ := Prod.mk.inj heq
    exact Nat.lt_trans (ih ht) (length_lt_of_character? hc)

theorem length_lt_of_token? {s rest : Text} {t : Token} (h : token? s = some (t, rest)) :
    rest.length < s.length := by
  cases s with
  | nil => cases h
  | cons c s =>
    rw [token?] at h
    split at h
    · obtain ⟨-, rfl⟩ := Prod.mk.inj (Option.some.inj h)
      exact Nat.lt_succ_self _
    split at h
    · obtain ⟨⟨t', rest'⟩, ht, heq⟩ := Option.map_eq_some_iff.1 h
      obtain ⟨-, rfl⟩ := Prod.mk.inj heq
      exact Nat.lt_succ_of_lt (length_lt_of_string? ht)
    · obtain ⟨⟨x, rest'⟩, hx, heq⟩ := Option.map_eq_some_iff.1 h
      obtain ⟨-, rfl⟩ := Prod.mk.inj heq
      rcases Option.or_eq_some_iff.1 hx with hx | ⟨-, hx⟩
      · exact length_lt_of_number? hx
      · exact length_lt_of_word? hx

/-- The tokens of a text. -/
def tokens? : Text → Option (List Token)
  | [] => some []
  | c :: s =>
    if isSpace c then tokens? s
    else
      match _h : token? (c :: s) with
      | none => none
      | some (t, rest) => (tokens? rest).map (t :: ·)
termination_by s => s.length
decreasing_by
  · simp
  · exact length_lt_of_token? _h

/-! ## The machine -/

/-- A list or an object that is not closed: what it has so far. -/
inductive Frame where
  | list (items : List Value)
  /-- The key is that of the member whose value is being read. -/
  | object (members : List (Text × Value)) (key : Text)

/-- What the machine waits for, within the frames that are open. -/
inductive State where
  /-- A value. -/
  | value (frames : List Frame)
  /-- The first item of a list, or its end. -/
  | firstItem (frames : List Frame)
  /-- The first key of an object, or its end. -/
  | firstKey (frames : List Frame)
  /-- A key, after a comma. -/
  | nextKey (frames : List Frame) (members : List (Text × Value))
  /-- The colon behind a key. -/
  | colon (frames : List Frame) (members : List (Text × Value)) (key : Text)
  /-- The end of the innermost frame, or a comma; `v` has just been read. -/
  | after (frames : List Frame) (v : Value)

/-- The beginning of a value. -/
def State.begin? (frames : List Frame) : Token → Option State
  | .scalar x => some (.after frames (.scalar x))
  | .mark .listOpen => some (.firstItem frames)
  | .mark .objectOpen => some (.firstKey frames)
  | .mark _ => none

/-- One step of the machine. -/
def State.step? : State → Token → Option State
  | .value frames, t => begin? frames t
  | .firstItem frames, .mark .listClose => some (.after frames (.list []))
  | .firstItem frames, t => begin? (.list [] :: frames) t
  | .firstKey frames, .mark .objectClose => some (.after frames (.object []))
  | .firstKey frames, .scalar (.text key) => some (.colon frames [] key)
  | .nextKey frames members, .scalar (.text key) => some (.colon frames members key)
  | .colon frames members key, .mark .colon => some (.value (.object members key :: frames))
  | .after (.list items :: frames) v, .mark .comma =>
    some (.value (.list (items ++ [v]) :: frames))
  | .after (.list items :: frames) v, .mark .listClose =>
    some (.after frames (.list (items ++ [v])))
  | .after (.object members key :: frames) v, .mark .comma =>
    some (.nextKey frames (members ++ [(key, v)]))
  | .after (.object members key :: frames) v, .mark .objectClose =>
    some (.after frames (.object (members ++ [(key, v)])))
  | _, _ => none

/-- Where the machine comes to, token by token. -/
def State.run? (x : State) (ts : List Token) : Option State := ts.foldlM step? x

/-- The value that has been read, if nothing is open. -/
def State.value? : State → Option Value
  | .after [] v => some v
  | _ => none

/-- The value that a text writes, if it is JSON. -/
def read? (s : Text) : Option Value :=
  (tokens? s).bind fun ts => (State.run? (.value []) ts).bind State.value?

end Declutter.Json
