import Declutter.Text.Basic

/-!
# Styled text on a console

A style is switched on before a text and everything is switched off after it. Where the text itself
switches everything off, the style is switched on again.
-/

namespace Declutter

/-- The styles that messages use. -/
inductive Style where
  | dimmed
  | cyan
  | yellow
  | boldCyan
  | boldWhite
  | boldYellow
  deriving DecidableEq, Repr

namespace Style

/-- The numbers of a style. -/
def codes : Style → Text
  | .dimmed => "2".toList
  | .cyan => "36".toList
  | .yellow => "33".toList
  | .boldCyan => "1;36".toList
  | .boldWhite => "1;37".toList
  | .boldYellow => "1;33".toList

/-- Switches a style on. -/
def on (style : Style) : Text := ['\x1b', '['] ++ style.codes ++ ['m']

/-- Switches everything off. -/
def off : Text := "\x1b[0m".toList

/-- A text in which a style is switched on again after everything was switched off. -/
def renew (style : Style) (s : Text) : Text :=
  match _h : Text.cut? off s with
  | none => s
  | some (before, rest) => before ++ off ++ style.on ++ renew style rest
termination_by s.length
decreasing_by exact Text.length_lt_of_cut? (by decide) _h

/-- A text in a style, on a console that has styles. -/
def paint (style : Style) (colored : Bool) (s : Text) : Text :=
  if colored then style.on ++ style.renew s ++ off else s

end Style

/-- Whether a variable of the environment is set to anything but zero. -/
def isEnabled (value : String) : Bool := value != "0"

/-- Whether output has styles: they can be forced, then forbidden; otherwise a terminal has them
unless they are not wanted. -/
def usesStyles (force forbid wanted : Option String) (isTerminal : Bool) : Bool :=
  if force.any isEnabled then true
  else if forbid.any isEnabled then false
  else wanted.all isEnabled && isTerminal

end Declutter
