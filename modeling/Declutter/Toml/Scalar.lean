import Declutter.Toml.Quoted
import Declutter.Toml.Value

/-!
# TOML numbers, dates and flags

Everything that stands bare as a value. `scalar?` reads one from a run of characters; a run that is
none of these is no value.
-/

namespace Declutter.Toml

/-! ## Numbers -/

/-- The digits of a run in which underscores stand only between digits. -/
def digits? (isDigit : Char → Bool) (s : Text) : Option Text :=
  let groups := s.splitOn '_'
  if groups.all fun g => g ≠ [] && g.all isDigit then some groups.flatten else none

/-- A number in another base than ten. -/
def based? (base : Nat) (s : Text) : Option Int :=
  (digits? (fun c => (hexDigit? c).any (· < base)) s).map fun ds => ds.value base

/-- A sign, if there is one: whether it is a minus, and the rest. -/
def sign : Text → Bool × Text
  | '-' :: s => (true, s)
  | '+' :: s => (false, s)
  | s => (false, s)

/-- Decimal digits that do not begin with a zero, or a lone zero. -/
def decimal? (s : Text) : Option Text :=
  match digits? Char.isDigit s with
  | some ('0' :: _ :: _) => none
  | ds => ds

/-- An integer. -/
def integer? : Text → Option Int
  | '0' :: 'x' :: s => based? 16 s
  | '0' :: 'o' :: s => based? 8 s
  | '0' :: 'b' :: s => based? 2 s
  | s =>
    let (negative, s) := sign s
    (decimal? s).map fun ds => if negative then -(ds.value 10 : Int) else ds.value 10

/-- The exponent of a float, after its letter. -/
def exponent? (s : Text) : Option Int :=
  let (negative, s) := sign s
  (digits? Char.isDigit s).map fun ds => if negative then -(ds.value 10 : Int) else ds.value 10

/-- A float: a fraction, an exponent, or both. -/
def float? (s : Text) : Option (Option (Nat × Int)) := do
  let (_, s) := sign s
  if s = "inf".toList ∨ s = "nan".toList then return none
  let (mantissa, power) := s.span fun c => c != 'e' && c != 'E'
  let (whole, fraction) := mantissa.span (· != '.')
  if power = [] ∧ fraction = [] then failure
  let whole ← decimal? whole
  let fraction ← if fraction = [] then some [] else digits? Char.isDigit (fraction.drop 1)
  let exponent ← if power = [] then some 0 else exponent? (power.drop 1)
  return some ((whole ++ fraction).value 10, exponent - fraction.length)

/-! ## Dates and times -/

/-- Exactly `n` digits in front, from `low` to `high`. -/
def field? (n low high : Nat) (s : Text) : Option (Nat × Text) :=
  let ds := s.take n
  let value := Text.value 10 ds
  if ds.length = n ∧ ds.all Char.isDigit ∧ low ≤ value ∧ value ≤ high then some (value, s.drop n)
  else none

/-- How many days a month has. -/
def daysIn (year month : Nat) : Nat :=
  if month = 2 then
    if year % 4 = 0 ∧ (year % 100 ≠ 0 ∨ year % 400 = 0) then 29 else 28
  else if month ∈ [4, 6, 9, 11] then 30
  else 31

/-- A character that has to stand in front. -/
def mark? (c : Char) (s : Text) : Option Text := if s.head? = some c then some s.tail else none

/-- A date; gives what follows it. -/
def date? (s : Text) : Option Text := do
  let (year, s) ← field? 4 0 9999 s
  let s ← mark? '-' s
  let (month, s) ← field? 2 1 12 s
  let s ← mark? '-' s
  let (_, s) ← field? 2 1 (daysIn year month) s
  return s

/-- A time of day, to minutes, seconds or fractions of them; gives what follows it. -/
def time? (s : Text) : Option Text := do
  let (_, s) ← field? 2 0 23 s
  let s ← mark? ':' s
  let (_, s) ← field? 2 0 59 s
  match s with
  | ':' :: s =>
    let (_, s) ← field? 2 0 60 s
    match s with
    | '.' :: s => if s.head?.any Char.isDigit then some (s.dropWhile Char.isDigit) else none
    | s => some s
  | s => some s

/-- Whether a text is nothing, or a distance from universal time. -/
def isOffset (s : Text) : Bool :=
  match s with
  | [] => true
  | ['Z'] => true
  | ['z'] => true
  | c :: s =>
    (c == '+' || c == '-') && ((do
      let (_, s) ← field? 2 0 23 s
      let s ← mark? ':' s
      let (_, s) ← field? 2 0 59 s
      return s) == some [])

/-- Whether a text is a date, a time, or both. -/
def isMoment (s : Text) : Bool :=
  match date? s with
  | some [] => true
  | some (c :: rest) => (c == 'T' || c == 't' || c == ' ') && (time? rest).any isOffset
  | none => time? s == some []

/-! ## Any of them -/

/-- The value that a run of characters writes. -/
def scalar? (s : Text) : Option Value :=
  if s = "true".toList then some (.flag true)
  else if s = "false".toList then some (.flag false)
  else if isMoment s then some (.moment s)
  else
    match integer? s with
    | some n => some (.integer n)
    | none => (float? s).map .float

/-- Whether a character may stand in a bare value. -/
def isBare (c : Char) : Bool := c.isAlphanum || c ∈ ['+', '-', '_', '.', ':']

/-- The run of a bare value, and what follows it. One blank may stand between a date and a time. -/
def bareRun (s : Text) : Text × Text :=
  match s.span isBare with
  | (run, ' ' :: c :: rest) =>
    if date? run = some [] ∧ c.isDigit then
      let (time, rest) := (c :: rest).span isBare
      (run ++ ' ' :: time, rest)
    else (run, ' ' :: c :: rest)
  | r => r

end Declutter.Toml
