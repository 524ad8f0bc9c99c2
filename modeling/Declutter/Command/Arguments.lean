import Declutter.Path
import Declutter.Report
import Declutter.Text.Numeral

/-!
# Command line arguments

Arguments are read from left to right. An option that still waits for its value is settled as soon
as the next option comes, or at the end; so a request for help shows help only if nothing before it
is wrong.
-/

namespace Declutter

/-- The shells that completions can be made for. -/
inductive Shell where
  | bash
  | elvish
  | fish
  | powershell
  | zsh
  deriving DecidableEq, Repr

/-- The shell of a name. -/
def Shell.ofText? (s : Text) : Option Shell :=
  [("bash".toList, .bash), ("elvish".toList, .elvish), ("fish".toList, .fish),
    ("powershell".toList, .powershell), ("zsh".toList, .zsh)].lookup s

/-- The options with a value. -/
inductive OptionName where
  | input
  | output
  | report
  | threshold
  | ext
  | config
  | reportFormat
  | completions
  deriving DecidableEq, Repr

/-- The options without a value. -/
inductive FlagName where
  | parallel
  | details
  | verbose
  | quiet
  | help
  | version
  deriving DecidableEq, Repr

/-- The option of a long name. -/
def longName? (s : Text) : Option (OptionName ⊕ FlagName) :=
  [("input".toList, .inl .input), ("output".toList, .inl .output), ("report".toList, .inl .report),
    ("threshold".toList, .inl .threshold), ("ext".toList, .inl .ext),
    ("config".toList, .inl .config), ("report-format".toList, .inl .reportFormat),
    ("completions".toList, .inl .completions), ("parallel".toList, .inr .parallel),
    ("details".toList, .inr .details), ("verbose".toList, .inr .verbose),
    ("quiet".toList, .inr .quiet), ("help".toList, .inr .help),
    ("version".toList, .inr .version)].lookup s

/-- The option of a letter. -/
def shortName? (c : Char) : Option (OptionName ⊕ FlagName) :=
  [('i', .inl .input), ('o', .inl .output), ('t', .inl .threshold), ('c', .inl .config),
    ('v', .inr .verbose), ('q', .inr .quiet), ('h', .inr .help), ('V', .inr .version)].lookup c

/-- What the command line asks for. -/
structure Arguments where
  input : Option Path := none
  output : Option Path := none
  report : Option Path := none
  threshold : Option Nat := none
  extensions : List Text := []
  config : Option Path := none
  format : Option ReportFormat := none
  completions : Option Shell := none
  parallel : Bool := false
  details : Bool := false
  verbose : Bool := false
  quiet : Bool := false
  deriving DecidableEq, Repr

/-- Why reading the arguments ends before a run. -/
inductive Stop where
  | misuse
  | help
  | version
  deriving DecidableEq, Repr

namespace Arguments

/-! ## Values -/

/-- A path is not empty. -/
def path? (s : Text) : Option Path := if s = [] then none else some ⟨s⟩

/-- A count of a machine word, with or without a plus sign. -/
def count? (s : Text) : Option Nat :=
  Text.word? 10 (if s.head? = some '+' then s.tail else s)

/-- The format of a name. -/
def format? (s : Text) : Option ReportFormat :=
  if s = "text".toList then some .text else if s = "json".toList then some .json else none

/-- Sets a field that is not set yet. -/
def once {α : Type} (current : Option α) (value : Option α) : Except Stop (Option α) :=
  if current.isSome ∨ value.isNone then .error .misuse else .ok value

/-- Gives an option its value. Only extensions may be given more than once. -/
def give (a : Arguments) (o : OptionName) (s : Text) : Except Stop Arguments := do
  match o with
  | .input => return { a with input := ← once a.input (path? s) }
  | .output => return { a with output := ← once a.output (path? s) }
  | .report => return { a with report := ← once a.report (path? s) }
  | .threshold => return { a with threshold := ← once a.threshold (count? s) }
  | .ext => return { a with extensions := a.extensions ++ [s] }
  | .config => return { a with config := ← once a.config (path? s) }
  | .reportFormat => return { a with format := ← once a.format (format? s) }
  | .completions => return { a with completions := ← once a.completions (Shell.ofText? s) }

/-- Raises a flag that is not up yet. -/
def up (current : Bool) : Except Stop Bool := if current then .error .misuse else .ok true

/-- What a flag asks for. -/
def raise (a : Arguments) (f : FlagName) : Except Stop Arguments := do
  match f with
  | .parallel => return { a with parallel := ← up a.parallel }
  | .details => return { a with details := ← up a.details }
  | .verbose => return { a with verbose := ← up a.verbose }
  | .quiet => return { a with quiet := ← up a.quiet }
  | .help => throw .help
  | .version => throw .version

end Arguments

/-! ## Reading -/

/-- The arguments as far as they were read. -/
structure ArgumentReading where
  arguments : Arguments := {}
  /-- The option that was read last and is not settled, with its value. -/
  pending : Option (OptionName × Option Text) := none
  /-- Whether two dashes have ended the options. -/
  ended : Bool := false

namespace ArgumentReading

/-- Settles the option that was read last. -/
def settle (r : ArgumentReading) : Except Stop ArgumentReading := do
  match r.pending with
  | none => return r
  | some (_, none) => throw .misuse
  | some (o, some s) => return { r with arguments := ← r.arguments.give o s, pending := none }

/-- An option with its value. -/
def give (r : ArgumentReading) (o : OptionName) (s : Text) : Except Stop ArgumentReading := do
  let r ← r.settle
  return { r with arguments := ← r.arguments.give o s }

/-- An option whose value is the next argument. -/
def await (r : ArgumentReading) (o : OptionName) : Except Stop ArgumentReading := do
  let r ← r.settle
  return { r with pending := some (o, none) }

/-- A flag. -/
def raise (r : ArgumentReading) (f : FlagName) : Except Stop ArgumentReading := do
  let r ← r.settle
  return { r with arguments := ← r.arguments.raise f }

/-- An option by its long name, with or without a value after an equals sign. -/
def readLong (r : ArgumentReading) (s : Text) : Except Stop ArgumentReading :=
  let (name, rest) := s.span (· != '=')
  match longName? name, rest with
  | some (.inl o), [] => r.await o
  | some (.inl o), _ :: value => r.give o value
  | some (.inr f), [] => r.raise f
  | _, _ => .error .misuse

/-- Options by their letters. The rest after the letter of an option with a value is that value. -/
def readShort (r : ArgumentReading) : Text → Except Stop ArgumentReading
  | [] => .ok r
  | c :: s =>
    match shortName? c, s with
    | some (.inl o), [] => r.await o
    | some (.inl o), '=' :: value => r.give o value
    | some (.inl o), value => r.give o value
    | some (.inr f), s => do (← r.raise f).readShort s
    | none, _ => .error .misuse

/-- One argument. -/
def read (r : ArgumentReading) (s : Text) : Except Stop ArgumentReading :=
  if r.ended then .error .misuse
  else
    match s with
    | ['-', '-'] => .ok { r with ended := true }
    | '-' :: '-' :: s => r.readLong s
    | '-' :: c :: s => r.readShort (c :: s)
    | s =>
      match r.pending with
      | some (o, none) => .ok { r with pending := some (o, some s) }
      | _ => .error .misuse

end ArgumentReading

/-- The arguments of a command line. -/
def Arguments.read (args : List Text) : Except Stop Arguments := do
  let r ← args.foldlM ArgumentReading.read {}
  return (← r.settle).arguments

end Declutter
