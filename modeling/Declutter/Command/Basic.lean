import Declutter.Command.Arguments
import Declutter.Config.Location
import Declutter.Summary

/-!
# The command

What the program does with its arguments: it shows help, or it reads its configuration, changes it
as the arguments say, and runs. The outcome says what is printed and with which code the program
ends.
-/

namespace Declutter

namespace Arguments

/-- The configuration with the changes that the arguments ask for. -/
def adjust (a : Arguments) (c : Config) : Config :=
  { c with
    input := a.input.getD c.input
    output := a.output.getD c.output
    report := a.report.getD c.report
    lineThreshold := a.threshold.getD c.lineThreshold
    extensions :=
      if a.extensions.isEmpty then c.extensions
      else a.extensions.map fun e => e.dropWhile (· == '.')
    parallel := a.parallel || c.parallel }

/-- The configuration that the arguments ask for. -/
def configure (a : Arguments) (d : Disk) : Except Failure Config :=
  (match a.config with
    | some p => Config.load d p
    | none => Config.loadFrom d ".").map a.adjust

end Arguments

namespace Command

/-- The help text. -/
def help : List String := [
  "Strip comments, flag long methods and report likely unused types across a C# source tree",
  "",
  "Usage: codescrub [OPTIONS]",
  "",
  "Options:",
  "  -i, --input <INPUT>                  Source tree to scrub (default: Code)",
  "  -o, --output <OUTPUT>                " ++
    "Output directory, deleted and recreated on every run (default: Code_Cleaned)",
  "      --report <FILE>                  " ++
    "Unused-type report file; relative paths are placed under the output directory",
  "  -t, --threshold <LINES>              " ++
    "Annotate methods whose body spans more than this many lines (default: 25)",
  "      --ext <EXT>                      " ++
    "Source file extension without the dot (can be specified multiple times)",
  "  -c, --config <CONFIG>                Path to configuration file",
  "      --parallel                       Strip and annotate files in parallel",
  "      --report-format <REPORT_FORMAT>  " ++
    "Format of the unused-type report file [default: text] [possible values: text, json]",
  "      --details                        " ++
    "List every annotated method and unused type in the console summary",
  "  -v, --verbose                        Verbose output",
  "  -q, --quiet                          Quiet mode - only errors",
  "      --completions <SHELL>            " ++
    "Generate shell completions [possible values: bash, elvish, fish, powershell, zsh]",
  "  -h, --help                           Print help",
  "  -V, --version                        Print version"]

/-- How the program ends. -/
inductive Outcome where
  /-- The arguments are wrong, or ask for help or the version. -/
  | stopped (reason : Stop)
  /-- The arguments ask for the completions of a shell. -/
  | completing (shell : Shell)
  /-- There is no configuration. -/
  | unconfigured (failure : Failure)
  | ran (arguments : Arguments) (config : Config) (result : Except Failure RunSummary)

/-- What the program does on a disk. -/
def execute (args : List Text) (d : Disk) : Outcome × Disk :=
  match Arguments.read args with
  | .error reason => (.stopped reason, d)
  | .ok a =>
    match a.completions with
    | some shell => (.completing shell, d)
    | none =>
      match a.configure d with
      | .error f => (.unconfigured f, d)
      | .ok c =>
        let (result, d) := (c.run (a.format.getD .text)).runOn d
        (.ran a c result, d)

namespace Outcome

/-- The exit code. -/
def exitCode : Outcome → Nat
  | .stopped .misuse => 2
  | .stopped _ | .completing _ => 0
  | .unconfigured _ => 1
  | .ran _ _ (.error _) => 1
  | .ran _ _ (.ok _) => 0

/-- The failure that the program reports. -/
def failure? : Outcome → Option Failure
  | .unconfigured f | .ran _ _ (.error f) => some f
  | _ => none

/-- What is printed before a run. -/
def greeting (c : Config) (colored : Bool) : Text :=
  Style.cyan.paint colored
    ("🧹 Scrubbing ".toList ++ c.input.text ++ " → ".toList ++ c.output.text)

/-- The lines that the program prints, for a run of some hundredths of a second. -/
def lines (o : Outcome) (colored : Bool) (hundredths : Nat) : List Text :=
  match o with
  | .stopped .help => help.map (·.toList)
  | .stopped .version => ["codescrub ".toList ++ version]
  | .stopped .misuse | .completing _ | .unconfigured _ => []
  | .ran a c result =>
    if a.quiet then []
    else
      greeting c colored ::
        match result with
        | .ok summary => summary.lines colored a.details hundredths
        | .error _ => []

/-- What the program prints. -/
def output (o : Outcome) (colored : Bool) (hundredths : Nat) : Text :=
  (o.lines colored hundredths).flatMap (· ++ ['\n'])

end Outcome

end Command

end Declutter
