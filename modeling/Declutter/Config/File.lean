import Declutter.Config.Read
import Declutter.Failure
import Declutter.Text.Utf8
import Declutter.Toml.Document
import Declutter.Yaml.Document

/-!
# Configuration files

The extension of a file says which format its settings are in.
-/

namespace Declutter.Config

/-- The configuration that a TOML document writes. -/
def ofToml? (s : Text) : Option Config :=
  (Toml.Document.table? s).bind fun t => read? (Toml.Value.table .header t)

/-- The configuration that a YAML document writes. -/
def ofYaml? (s : Text) : Option Config :=
  (Yaml.Document.ofText? s).bind fun d => read? (⟨d, d.root⟩ : Yaml.Value)

/-- The configuration in the text of a file. -/
def ofText (path : Path) (s : Text) : Except Failure Config :=
  let extension := path.extension?.getD []
  let settle (c : Option Config) : Except Failure Config :=
    c.elim (.error (.configParse path .malformed)) .ok
  if ["yml".toList, "yaml".toList].contains extension then settle (ofYaml? s)
  else if extension = "toml".toList then settle (ofToml? s)
  else .error (.configParse path (.unsupported extension))

/-- The configuration in the bytes of a file; `none` stands for a file that cannot be read. -/
def ofBytes (path : Path) (bytes : Option (List UInt8)) : Except Failure Config :=
  match bytes.bind Text.decode? with
  | some s => ofText path s
  | none => .error (.configRead path)

/-- The files that are looked for where no file is named, in this order. -/
def fileNames : List Path := [".codescrub.toml", ".codescrub.yml", ".codescrub.yaml"]

end Declutter.Config
