import Mathlib
import Declutter.Proofs.Symbol.Listing
import Declutter.Proofs.Symbol.Usage
import Declutter.Report

/-!
# Reports as plain text

A plain report escapes nothing: files, names and empty lines are told apart by where they stand. A
file is the first line of its part, whatever it looks like. Every name is on a line that begins with
a dash, so the first empty line behind the file ends its part (`renderFile_append_inj`). This is
enough to tell any two reports apart, if no file or name goes over a line
(`eq_of_renderText`). Names never do, since they are made of word characters.
-/

namespace Declutter

namespace UnusedReport

open Text

variable {file file' rest rest' : Text} {names names' : List Text}

/-- The line of a name. -/
def nameLine (name : Text) : Text := "  - ".toList ++ name ++ ['\n']

theorem renderFile_append (file : Text) (names : List Text) (rest : Text) :
    renderFile file names ++ rest = file ++ '\n' :: (names.flatMap nameLine ++ '\n' :: rest) := by
  show file ++ ['\n'] ++ names.flatMap nameLine ++ ['\n'] ++ rest = _
  simp

theorem nameLines_cons (name : Text) (names : List Text) (rest : Text) :
    (name :: names).flatMap nameLine ++ rest =
      "  - ".toList ++ (name ++ '\n' :: (names.flatMap nameLine ++ rest)) := by
  simp only [List.flatMap_cons, nameLine, List.append_assoc, List.cons_append, List.nil_append]

theorem nameLines_append_inj (hnames : ∀ n ∈ names, '\n' ∉ n) (hnames' : ∀ n ∈ names', '\n' ∉ n)
    (h : names.flatMap nameLine ++ '\n' :: rest = names'.flatMap nameLine ++ '\n' :: rest') :
    names = names' ∧ rest = rest' := by
  induction names generalizing names' with
  | nil =>
    cases names' with
    | nil => exact ⟨rfl, (List.cons.inj h).2⟩
    | cons n' names' => exact absurd (List.cons.inj h).1 (by decide)
  | cons n names ih =>
    cases names' with
    | nil => exact absurd (List.cons.inj h).1 (by decide)
    | cons n' names' =>
      obtain ⟨hn, hmore⟩ := List.forall_mem_cons.1 hnames
      obtain ⟨hn', hmore'⟩ := List.forall_mem_cons.1 hnames'
      have hline := (nameLines_cons n names _).symm.trans (h.trans (nameLines_cons n' names' _))
      obtain ⟨rfl, hlines⟩ := append_cons_inj hn hn' (List.append_cancel_left hline)
      obtain ⟨rfl, rfl⟩ := ih hmore hmore' hlines
      exact ⟨rfl, rfl⟩

/-- **The part of a file** ends in one place only, and has one file and one list of names. -/
theorem renderFile_append_inj (hfile : '\n' ∉ file) (hfile' : '\n' ∉ file')
    (hnames : ∀ n ∈ names, '\n' ∉ n) (hnames' : ∀ n ∈ names', '\n' ∉ n)
    (h : renderFile file names ++ rest = renderFile file' names' ++ rest') :
    file = file' ∧ names = names' ∧ rest = rest' := by
  rw [renderFile_append, renderFile_append] at h
  obtain ⟨rfl, hlines⟩ := append_cons_inj hfile hfile' h
  exact ⟨rfl, nameLines_append_inj hnames hnames' hlines⟩

theorem renderFile_ne_nil (file : Text) (names : List Text) : renderFile file names ≠ [] := by
  simp [renderFile]

/-- No file and no name goes over a line. -/
def OnLines (files : List (Text × List Text)) : Prop :=
  ∀ entry ∈ files, '\n' ∉ entry.1 ∧ ∀ n ∈ entry.2, '\n' ∉ n

theorem renderFiles_inj {files files' : List (Text × List Text)} (hfiles : OnLines files)
    (hfiles' : OnLines files')
    (h : (files.flatMap fun (file, names) => renderFile file names) =
      files'.flatMap fun (file, names) => renderFile file names) : files = files' := by
  induction files generalizing files' with
  | nil =>
    cases files' with
    | nil => rfl
    | cons entry' files' =>
      have hnil := (List.append_eq_nil_iff.1 (h.symm.trans List.flatMap_nil)).1
      exact absurd hnil (renderFile_ne_nil _ _)
  | cons entry files ih =>
    cases files' with
    | nil =>
      have hnil := (List.append_eq_nil_iff.1 (h.trans List.flatMap_nil)).1
      exact absurd hnil (renderFile_ne_nil _ _)
    | cons entry' files' =>
      obtain ⟨hentry, hmore⟩ := List.forall_mem_cons.1 hfiles
      obtain ⟨hentry', hmore'⟩ := List.forall_mem_cons.1 hfiles'
      obtain ⟨hfile, hnames, hrest⟩ :=
        renderFile_append_inj hentry.1 hentry'.1 hentry.2 hentry'.2 h
      rw [Prod.ext hfile hnames, ih hmore hmore' hrest]

/-- Plain reports with the same text are the same. -/
theorem eq_of_renderText {r r' : UnusedReport} (hr : OnLines r.files) (hr' : OnLines r'.files)
    (h : r.renderText = r'.renderText) : r = r' := by
  have hfiles : r.files = r'.files := renderFiles_inj hr hr' (List.append_cancel_left h)
  obtain ⟨files⟩ := r
  exact congrArg UnusedReport.mk hfiles

end UnusedReport

namespace SymbolIndex

open Declutter.Symbol

variable {x x' : Lexicon} {units units' : List SourceUnit}

/-- A likely unused type has the name that a unit defines, and its files are units of the corpus. -/
theorem onLines_unused (x : Lexicon) (hpaths : ∀ u ∈ units, '\n' ∉ u.display) :
    UnusedReport.OnLines (ofUnits x units).unused.files := by
  have hsymbol : ∀ y ∈ (ofUnits x units).symbols,
      '\n' ∉ y.name ∧ ∀ file ∈ y.files, '\n' ∉ file := by
    rw [ofUnits_eq]
    intro y hy
    obtain ⟨n, hn, rfl⟩ := List.mem_map.1 hy
    rw [Ordered.mem_ofList, List.mem_flatMap] at hn
    obtain ⟨u, -, hdef⟩ := hn
    refine ⟨fun hfeed => ?_, fun file hfile => ?_⟩
    · exact absurd ((isWord_of_mem_definitions hdef).2 _ hfeed) (by decide)
    · obtain ⟨v, hv, rfl⟩ := List.mem_map.1 (Ordered.mem_ofList.1 hfile)
      exact hpaths v (List.mem_of_mem_filter hv)
  intro entry hentry
  obtain ⟨hidle, hnames⟩ := mem_files_unused.1 hentry
  constructor
  · obtain ⟨y, hy⟩ := List.exists_mem_of_ne_nil _ hidle
    obtain ⟨hy, -, hfile⟩ := mem_idleIn.1 hy
    exact (hsymbol y hy).2 _ hfile
  · rw [hnames]
    intro n hn
    obtain ⟨y, hy, rfl⟩ := List.mem_map.1 hn
    exact (hsymbol y (mem_idleIn.1 hy).1).1

/-- **A plain report is unambiguous.** If the lists of two corpora are printed alike, they are the
same, provided that no path goes over a line. Paths may be empty, and may look like the line of a
name. -/
theorem unused_eq_of_render_text (hpaths : ∀ u ∈ units, '\n' ∉ u.display)
    (hpaths' : ∀ u ∈ units', '\n' ∉ u.display)
    (h : (ofUnits x units).unused.render .text = (ofUnits x' units').unused.render .text) :
    (ofUnits x units).unused = (ofUnits x' units').unused :=
  UnusedReport.eq_of_renderText (onLines_unused x hpaths) (onLines_unused x' hpaths') h

/-- Two units with an empty path and one that looks like the line of a name; both define `A`. -/
def dashUnits : List SourceUnit :=
  [.ofText "  - B" ['k', ' ', 'A'], .ofText "" ['k', ' ', 'A', ';', 'k', ' ', 'B']]

/-- The same types defined in another order, and one that is mentioned again. -/
def otherDashUnits : List SourceUnit :=
  [.ofText "" ['k', ' ', 'B', ',', 'k', ' ', 'A', ' '],
    .ofText "  - B" ['k', ' ', 'C', ' ', 'C', ' ', 'k', ' ', 'A']]

theorem unused_dashUnits :
    (∀ u ∈ dashUnits, '\n' ∉ u.display) ∧ (∀ u ∈ otherDashUnits, '\n' ∉ u.display) ∧
    (ofUnits kindLexicon dashUnits).unused.render .text =
      (ofUnits kindLexicon otherDashUnits).unused.render .text ∧
    (ofUnits kindLexicon dashUnits).unused = (ofUnits kindLexicon otherDashUnits).unused := by
  have hdisplay : dashUnits.map (·.display) = ["  - B".toList, []] := by cbv
  have hdisplay' : otherDashUnits.map (·.display) = [[], "  - B".toList] := by cbv
  have hpaths : ∀ u ∈ dashUnits, '\n' ∉ u.display := by
    rw [← List.forall_mem_map (P := ('\n' ∉ ·)), hdisplay]
    decide
  have hpaths' : ∀ u ∈ otherDashUnits, '\n' ∉ u.display := by
    rw [← List.forall_mem_map (P := ('\n' ∉ ·)), hdisplay']
    decide
  have htext : (ofUnits kindLexicon dashUnits).unused.render .text =
      (ofUnits kindLexicon otherDashUnits).unused.render .text := by cbv
  exact ⟨hpaths, hpaths', htext, unused_eq_of_render_text hpaths hpaths' htext⟩

end SymbolIndex

end Declutter
