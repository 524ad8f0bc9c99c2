import Declutter.Json
import Declutter.Symbol.Index

/-!
# Report files

The list of likely unused types, as plain text or as JSON.
-/

namespace Declutter

/-- How the report file is written. -/
inductive ReportFormat where
  | text
  | json
  deriving DecidableEq, Repr

/-- The number of this version, as reports give it. -/
def version : Text := "0.1.0".toList

namespace UnusedReport

/-- The first line of a plain report. -/
def header : Text :=
  "Likely unused scripts (classes/structs only referenced where defined):".toList

/-- The lines of one file: its name, its types, and an empty line. -/
def renderFile (file : Text) (names : List Text) : Text :=
  file ++ ['\n'] ++ names.flatMap (fun n => "  - ".toList ++ n ++ ['\n']) ++ ['\n']

/-- The report as plain text. -/
def renderText (r : UnusedReport) : Text :=
  header ++ ['\n', '\n'] ++ r.files.flatMap fun (file, names) => renderFile file names

/-- The report as a JSON value. -/
def toJson (r : UnusedReport) : Json :=
  .object [
    ("version".toList, .text version),
    ("total_files".toList, .number r.fileCount),
    ("total_symbols".toList, .number r.total),
    ("files".toList, .list (r.files.map fun (file, names) =>
      .object [("path".toList, .text file), ("symbols".toList, .list (names.map .text))]))]

/-- The report as the text of its file. -/
def render (r : UnusedReport) : ReportFormat → Text
  | .text => r.renderText
  | .json => r.toJson.pretty

end UnusedReport

end Declutter
