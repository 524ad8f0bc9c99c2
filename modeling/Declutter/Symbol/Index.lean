import Declutter.Ordered
import Declutter.Source.Unit
import Declutter.Symbol.Definition

/-!
# The index of types

The index of a corpus has every type that some unit defines, with the units that define it and the
number of times its name occurs, anywhere in the corpus, as a whole word. A type is likely unused
when it is mentioned no more often than there are files that define it: then nothing but the
definitions speaks of it.
-/

namespace Declutter

/-- A type name, the files that define it in increasing order, and how often the corpus mentions
it. -/
structure Symbol where
  name : Text
  files : List Text
  mentions : Nat
  deriving DecidableEq, Repr

/-- Mentioned no more often than there are files that define it. -/
def Symbol.isLikelyUnused (y : Symbol) : Bool := y.mentions ≤ y.files.length

/-- The likely unused types of each file: files in increasing order, and the names of each. -/
structure UnusedReport where
  files : List (Text × List Text)
  deriving DecidableEq, Repr

namespace UnusedReport

/-- The names listed under a file. -/
def namesOf? (r : UnusedReport) (file : Text) : Option (List Text) := r.files.lookup file

/-- How many files are listed. -/
def fileCount (r : UnusedReport) : Nat := r.files.length

/-- How many names are listed, over all files. -/
def total (r : UnusedReport) : Nat := r.files.foldl (fun n f => n + f.2.length) 0

/-- Whether nothing is listed. -/
def isEmpty (r : UnusedReport) : Bool := r.files.isEmpty

end UnusedReport

/-- The types of a corpus, in increasing order of their names. -/
structure SymbolIndex where
  symbols : List Symbol
  deriving DecidableEq, Repr

namespace SymbolIndex

/-- The index of a corpus. -/
def ofUnits (x : Lexicon) (units : List SourceUnit) : SymbolIndex :=
  let defined := units.map fun u => (u.display, Symbol.definitions x u.text)
  let words := units.flatMap fun u => u.text.words
  let names := Ordered.ofList (defined.flatMap (·.2))
  ⟨names.map fun n =>
    { name := n
      files := Ordered.ofList ((defined.filter fun d => d.2.contains n).map (·.1))
      mentions := words.count n }⟩

/-- What the index has on a name. -/
def find? (i : SymbolIndex) (name : Text) : Option Symbol := i.symbols.find? (·.name == name)

/-- The files that define a name. -/
def definingFiles? (i : SymbolIndex) (name : Text) : Option (List Text) :=
  (i.find? name).map (·.files)

/-- How often a defined name is mentioned. -/
def usageCount (i : SymbolIndex) (name : Text) : Nat := ((i.find? name).map (·.mentions)).getD 0

/-- Whether a name is defined and likely unused. -/
def isLikelyUnused (i : SymbolIndex) (name : Text) : Bool :=
  (i.find? name).any Symbol.isLikelyUnused

/-- The likely unused types, listed under every file that defines them. -/
def unused (i : SymbolIndex) : UnusedReport :=
  let idle := i.symbols.filter Symbol.isLikelyUnused
  let files := Ordered.ofList (idle.flatMap (·.files))
  ⟨files.map fun f => (f, (idle.filter fun y => y.files.contains f).map (·.name))⟩

end SymbolIndex

end Declutter
