import Declutter.Path
import Declutter.Text.Quoted

/-!
# Failures

Why a run, or the reading of its settings, came to an end. Each cause has a message, a code for
diagnostics and, where something can be done about it, a hint.
-/

namespace Declutter

/-- What is wrong with the settings in a file. -/
inductive SettingsFault where
  /-- The file's extension stands for no known format. -/
  | unsupported (extension : Text)
  /-- The text is not in its format, or a value is not of its kind. -/
  | malformed
  deriving DecidableEq, Repr

/-- How a fault is described. -/
def SettingsFault.message : SettingsFault → Text
  | .unsupported extension => "unsupported config extension ".toList ++ extension.quoted
  | .malformed => "malformed settings".toList

/-- The causes of failure. Patterns that do not compile are not among them, since none are
compiled. -/
inductive Failure where
  | configRead (path : Path)
  | configParse (path : Path) (fault : SettingsFault)
  | missingInput (path : Path)
  | overlappingRoots (input output : Path)
  | outputDir (path : Path)
  | write (path : Path)
  deriving DecidableEq, Repr

namespace Failure

/-- What is said of a failure. -/
def message : Failure → Text
  | .configRead p => "failed to read config file ".toList ++ p.text
  | .configParse p fault => "invalid config file ".toList ++ p.text ++ ": ".toList ++ fault.message
  | .missingInput p => "input directory ".toList ++ p.text ++ " does not exist".toList
  | .overlappingRoots input output =>
    "output directory ".toList ++ output.text ++ " overlaps input directory ".toList ++ input.text
  | .outputDir p => "failed to prepare output directory ".toList ++ p.text
  | .write p => "failed to write ".toList ++ p.text

/-- The code of a failure in diagnostics. -/
def code : Failure → Text
  | .configRead _ => "codescrub::config::read".toList
  | .configParse .. => "codescrub::config::parse".toList
  | .missingInput _ => "codescrub::input::missing".toList
  | .overlappingRoots .. => "codescrub::output::overlap".toList
  | .outputDir _ => "codescrub::output::prepare".toList
  | .write _ => "codescrub::output::write".toList

/-- What can be done about a failure. -/
def help? : Failure → Option Text
  | .configParse .. => some "config files are TOML (.toml) or YAML (.yml, .yaml)".toList
  | .overlappingRoots .. => some
    ("the output directory is deleted at the start of every run; " ++
      "point it outside the input tree").toList
  | _ => none

end Failure

end Declutter
