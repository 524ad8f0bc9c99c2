import Mathlib
import Declutter.Proofs.Json.RoundTrip
import Declutter.Proofs.Symbol.Listing
import Declutter.Report

/-!
# Reports as JSON

`read?_render_json`: a report that is written as JSON is read back whole, whatever its files and
names are called. It is laid out from a JSON value, and any such value is read back
(`Json.read?_pretty`); what is left is to say which value that is (`value_toJson`).
-/

namespace Declutter.UnusedReport

open Json (Value)

variable {r : UnusedReport}

/-- Every name with its file. -/
def entries (r : UnusedReport) : List (Text × Text) :=
  r.files.flatMap fun (file, names) => names.map (file, ·)

theorem length_entries (r : UnusedReport) : r.entries.length = r.total := by
  rw [total_eq_sum_map, entries, List.length_flatMap]
  simp

theorem Increasing.nodup_entries (h : r.Increasing) : r.entries.Nodup := by
  refine List.nodup_flatMap.2 ⟨fun entry hentry => ?_, h.files.imp fun {e e'} hlt => ?_⟩
  · exact (h.names entry hentry).nodup.map fun _ _ heq => (Prod.mk.inj heq).2
  · intro x hx hx'
    obtain ⟨_, -, rfl⟩ := List.mem_map.1 hx
    obtain ⟨_, -, heq⟩ := List.mem_map.1 hx'
    exact hlt.ne (Prod.mk.inj heq).1.symm

/-- A file with its names, as a JSON value. -/
def fileValue (entry : Text × List Text) : Value :=
  .object [("path".toList, .text entry.1), ("symbols".toList, .list (entry.2.map Value.text))]

theorem value_toJson (r : UnusedReport) : r.toJson.value = .object [
    ("version".toList, .text version),
    ("total_files".toList, .natural r.fileCount),
    ("total_symbols".toList, .natural r.entries.length),
    ("files".toList, .list (r.files.map fileValue))] := by
  have hfiles : ((r.files.map fun (file, names) => Json.object [("path".toList, .text file),
      ("symbols".toList, .list (names.map .text))]).map Json.value) = r.files.map fileValue := by
    rw [List.map_map]
    refine List.map_congr_left fun entry _ => ?_
    simp only [Function.comp_apply, Json.value, Json.memberValues, Json.itemValues_eq, List.map_map]
    rfl
  rw [length_entries]
  simp only [toJson, Json.value, Json.memberValues, Json.itemValues_eq]
  rw [hfiles]

/-- **A JSON report is lossless.** It can be read, and it has the counts, files and names of the
report. Where files increase, and the names of each, as they do in the list of every corpus
(`increasing_unused`), they are in the order of their bytes, and no entry is counted twice. -/
theorem read?_render_json (r : UnusedReport) :
    Json.read? (r.render .json) = some (.object [
      ("version".toList, .text version),
      ("total_files".toList, .natural r.fileCount),
      ("total_symbols".toList, .natural r.entries.length),
      ("files".toList, .list (r.files.map fileValue))]) ∧
    (r.Increasing → r.entries.Nodup ∧ (r.files.map (·.1.utf8)).Pairwise (· < ·) ∧
      ∀ entry ∈ r.files, (entry.2.map (·.utf8)).Pairwise (· < ·)) := by
  constructor
  · rw [render, Json.read?_pretty, value_toJson]
  · intro h
    refine ⟨h.nodup_entries, List.pairwise_map.2 (h.files.imp Text.utf8_lt), ?_⟩
    intro entry hentry
    exact List.pairwise_map.2 ((h.names entry hentry).imp Text.utf8_lt)

/-- Files whose names need escapes, one of them without types. -/
def escapedReport : UnusedReport :=
  ⟨[("\x01\t\"".toList, ["A".toList, "_b".toList]), ("\\\n".toList, []),
    ("é😀".toList, ["A".toList])]⟩

theorem read?_render_escapedReport :
    escapedReport.Increasing ∧
    Json.read? (escapedReport.render .json) = some (.object [
      ("version".toList, .text version),
      ("total_files".toList, .natural 3),
      ("total_symbols".toList, .natural 3),
      ("files".toList, .list (escapedReport.files.map fileValue))]) ∧
    (escapedReport.files.map (·.1.utf8)).Pairwise (· < ·) := by
  have h : escapedReport.Increasing := ⟨by decide, by decide⟩
  obtain ⟨hread, horder⟩ := read?_render_json escapedReport
  exact ⟨h, hread, (horder h).2.1⟩

end Declutter.UnusedReport
