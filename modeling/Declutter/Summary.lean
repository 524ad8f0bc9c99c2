import Declutter.Console
import Declutter.Run

/-!
# The summary of a run on the console
-/

namespace Declutter.RunSummary

/-- A number in decimal digits. -/
def digits (n : Nat) : Text := Nat.toDigits 10 n

/-- The lines that list the marked methods. -/
def methodLines (r : RunSummary) (colored : Bool) : List Text :=
  if r.annotated.isEmpty then []
  else
    [[], Style.boldYellow.paint colored "Long methods:".toList] ++ r.annotated.map fun m =>
      "  ".toList ++ Style.boldCyan.paint colored m.file ++ ":".toList ++ digits m.line ++
        "  ".toList ++ Style.boldWhite.paint colored m.name ++ " (".toList ++ digits m.lineSpan ++
        " lines)".toList

/-- The lines that list the unused types. -/
def unusedLines (r : RunSummary) (colored : Bool) : List Text :=
  if r.unused.isEmpty then []
  else
    [[], Style.boldYellow.paint colored "Likely unused types:".toList] ++
      (r.unused.files.flatMap fun (file, names) =>
        ("  ".toList ++ Style.boldCyan.paint colored file) :: names.map fun n =>
          "    ".toList ++ Style.dimmed.paint colored "○".toList ++ " ".toList ++
            Style.boldWhite.paint colored n) ++
      [[]]

/-- The lines with the counts. -/
def countLines (r : RunSummary) (colored : Bool) : List Text :=
  let count (n : Nat) := Style.boldWhite.paint colored (digits n)
  ["  Files processed:     ".toList ++ count r.written] ++
  (if r.skipped = 0 then []
    else ["  Files skipped:       ".toList ++ Style.boldYellow.paint colored (digits r.skipped)]) ++
  ["  Methods annotated:   ".toList ++ count r.annotated.length,
    "  Likely unused types: ".toList ++ count r.unused.total ++ " in ".toList ++
      count r.unused.fileCount ++ " files".toList]

/-- A time in seconds with two places. -/
def seconds (hundredths : Nat) : Text :=
  digits (hundredths / 100) ++ ['.'] ++
    [Nat.digitChar (hundredths / 10 % 10), Nat.digitChar (hundredths % 10), 's']

/-- The summary of a run that took some hundredths of a second, in lines. -/
def lines (r : RunSummary) (colored details : Bool) (hundredths : Nat) : List Text :=
  let place (label : String) (p : Path) : Text :=
    "  ".toList ++ Style.dimmed.paint colored label.toList ++ " ".toList ++
      Style.dimmed.paint colored p.text
  [[], Style.boldCyan.paint colored "codescrub".toList, List.replicate 50 '━'] ++
  (if r.found = 0 then [Style.yellow.paint colored "No source files found.".toList] else []) ++
  (if details then r.methodLines colored ++ r.unusedLines colored else []) ++
  r.countLines colored ++
  [[], place "Cleaned code:" r.outputRoot, place "Unused report:" r.reportPath,
    Style.dimmed.paint colored ("⏱  Done in ".toList ++ seconds hundredths)]

end Declutter.RunSummary
