import Declutter.Lexicon
import Declutter.Method.Brace
import Declutter.Method.Name

/-!
# Finding methods

A method is recognised by its shape: a line that begins with a modifier, runs to a closing
parenthesis without `;`, `{` or a line end, and is followed by an opening brace, blanks between
allowed. Its body ends where the braces balance; a candidate whose body never ends is dropped.
Control statements do not begin with a modifier, and whatever else has this shape is taken for a
method.

`scan` goes on right after the opening brace, so methods within methods are found too.
-/

namespace Declutter.Method

/-- A method found in a text. Lines are counted from zero. -/
structure Span where
  /-- The line on which the signature begins. -/
  startLine : Nat
  /-- The line of the closing brace. -/
  endLine : Nat
  signature : Text
  name : Text
  deriving DecidableEq, Repr

/-- Line ends from the signature to the closing brace. -/
def Span.lineSpan (m : Span) : Nat := m.endLine - m.startLine

/-- A signature at the front of a text, the blanks after it, and the text after the opening
brace. -/
structure Opening where
  signature : Text
  gap : Text
  body : Text
  deriving DecidableEq, Repr

/-- The same opening with more signature in front. -/
def Opening.extend (o : Opening) (front : Text) : Opening :=
  { o with signature := front ++ o.signature }

/-- All that was read of an opening, up to and with the brace. -/
def Opening.head (o : Opening) : Text := o.signature ++ o.gap ++ ['{']

/-- The end of a signature: everything up to the last closing parenthesis that is followed by blanks
and an opening brace, with no `;`, `{` or line end before it. -/
def parameters? : Text → Option Opening
  | [] => none
  | c :: s =>
    if c == ';' || c == '\n' || c == '{' then none
    else
      match parameters? s with
      | some o => some (o.extend [c])
      | none =>
        if c == ')' then
          match s.dropWhile isBlank with
          | '{' :: body => some ⟨[')'], s.takeWhile isBlank, body⟩
          | _ => none
        else none

/-- A signature that begins with the modifier `m`, as a whole word. -/
def modified? (s m : Text) : Option Opening :=
  match m.isPrefixOf? s with
  | some rest =>
    if isWordEdge m.getLast? rest.head? then (parameters? rest).map (·.extend m) else none
  | none => none

/-- A signature at the front of a line: indentation, one of the modifiers, and the rest. If a
modifier itself begins with indentation, it starts as far right as possible. -/
def opening? (modifiers : List Text) : Text → Option Opening
  | [] => none
  | c :: s =>
    let indented := if isIndent c then (opening? modifiers s).map (·.extend [c]) else none
    indented.or (modifiers.findSome? (modified? (c :: s)))

theorem parameters?_eq_some {s : Text} {o : Opening} (h : parameters? s = some o) :
    s = o.head ++ o.body := by
  induction s generalizing o with
  | nil => simp [parameters?] at h
  | cons c s ih =>
    simp only [parameters?] at h
    split at h
    · simp at h
    split at h
    · next o' ho =>
      obtain rfl : o'.extend [c] = o := by simpa using h
      simp [Opening.extend, Opening.head, ih ho]
    split at h
    · next hc =>
      split at h
      · next body hb =>
        obtain rfl := Option.some.inj h
        have : s = s.takeWhile isBlank ++ '{' :: body := by
          rw [← hb, List.takeWhile_append_dropWhile]
        simp only [Opening.head, List.cons_append, List.nil_append, List.append_assoc]
        rw [← this, eq_of_beq hc]
      · simp at h
    · simp at h

theorem modified?_eq_some {s m : Text} {o : Opening} (h : modified? s m = some o) :
    s = o.head ++ o.body := by
  simp only [modified?] at h
  split at h
  · next rest hr =>
    split at h
    · obtain ⟨o', ho, rfl⟩ := Option.map_eq_some_iff.1 h
      rw [Text.eq_append_of_isPrefixOf? hr, parameters?_eq_some ho]
      simp [Opening.extend, Opening.head]
    · simp at h
  · simp at h

/-- An opening is the front of the text it was found in. -/
theorem opening?_eq_some {modifiers : List Text} {s : Text} {o : Opening}
    (h : opening? modifiers s = some o) : s = o.head ++ o.body := by
  induction s generalizing o with
  | nil => simp [opening?] at h
  | cons c s ih =>
    simp only [opening?, Option.or_eq_some_iff] at h
    rcases h with h | ⟨-, h⟩
    · split at h
      · obtain ⟨o', ho, rfl⟩ := Option.map_eq_some_iff.1 h
        simp [Opening.extend, Opening.head, ih ho]
      · simp at h
    · obtain ⟨m, -, hm⟩ := List.exists_of_findSome?_eq_some h
      exact modified?_eq_some hm

theorem length_body_lt {modifiers : List Text} {s : Text} {o : Opening}
    (h : opening? modifiers s = some o) : o.body.length < s.length := by
  rw [opening?_eq_some h]
  simp only [Opening.head, List.length_append, List.length_singleton]
  omega

/-- The method that begins on `line` with the opening `o`, if its body ends. -/
def Opening.span? (o : Opening) (line : Nat) : Option Span :=
  (Brace.close? Brace.ofChar 0 ('{' :: o.body)).map fun n =>
    let signature := o.signature.trim
    { startLine := line
      endLine := line + Text.feeds (o.signature ++ o.gap) + Text.feeds (('{' :: o.body).take n)
      signature
      name := shownName signature }

/-- The methods of a text that begins on `line`. `fresh` says that a line begins here. -/
def scanFrom (modifiers : List Text) (line : Nat) (fresh : Bool) : Text → List Span
  | [] => []
  | c :: s =>
    match h : if fresh then opening? modifiers (c :: s) else none with
    | some o =>
      (o.span? line).toList ++ scanFrom modifiers (line + Text.feeds o.head) false o.body
    | none => scanFrom modifiers (if c == '\n' then line + 1 else line) (c == '\n') s
termination_by s => s.length
decreasing_by
  · split at h
    · exact length_body_lt h
    · simp at h
  · simp

/-- The methods of a text whose bodies end, in order. -/
def scan (x : Lexicon) (s : Text) : List Span :=
  scanFrom (x.modifiers.filter (· ≠ [])) 0 true s

/-- The methods that span more than `threshold` line ends. -/
def flagged (x : Lexicon) (threshold : Nat) (s : Text) : List Span :=
  (scan x s).filter fun m => threshold < m.lineSpan

end Declutter.Method
