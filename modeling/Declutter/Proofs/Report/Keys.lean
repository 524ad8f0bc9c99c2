import Mathlib
import Declutter.Proofs.Path.Components
import Declutter.Proofs.Symbol.Addition
import Declutter.Proofs.Symbol.Listing

/-!
# The keys of files

In the index and in reports a file goes by the spelling of its components. Read as a path, that
spelling has these components again (`components_display`), also where the path is absolute and the
spelling begins with two slashes. So paths have the same key if they have the same components, and
only then, and a name has as many defining files as there are different ones
(`keys_identify_files`).
-/

namespace Declutter

namespace Path

variable {p : Path} {cs : List Component}

/-- Components with slashes between. -/
def spelling (cs : List Component) : Text := ['/'].intercalate (cs.map (·.text))

theorem display_eq (p : Path) : p.display = spelling p.components := rfl

/-- One more slash at the front of an absolute path makes no difference. -/
theorem components_cons_slash (h : p.isAbsolute) :
    (⟨'/' :: p.text⟩ : Path).components = p.components := by
  have hpieces : (⟨'/' :: p.text⟩ : Path).pieces = [] :: p.pieces := by
    rw [pieces, List.splitOn_cons_eq_if_modifyHead]
    rfl
  have hinner : (⟨'/' :: p.text⟩ : Path).inner = p.inner := by
    rw [inner, hpieces]
    rfl
  rw [components_eq, components_eq, hinner, if_pos h]
  rfl

/-- Components are spelled like the path of them, but for a second slash behind the root. -/
theorem spelling_eq (cs : List Component) :
    spelling cs = (ofComponents cs).text ∨
      cs.head? = some .root ∧ spelling cs = '/' :: (ofComponents cs).text := by
  cases cs with
  | nil => exact .inl rfl
  | cons c cs =>
    cases c with
    | root =>
      cases cs with
      | nil => exact .inl rfl
      | cons c cs => exact .inr ⟨rfl, rfl⟩
    | _ => exact .inl rfl

/-- **Components are read back from their spelling.** -/
theorem components_spelling (h : Canonical cs) : (⟨spelling cs⟩ : Path).components = cs := by
  rcases spelling_eq cs with hs | ⟨hroot, hs⟩
  · rw [hs]
    exact components_ofComponents h
  · rw [hs, components_cons_slash ((isAbsolute_ofComponents h).2 hroot)]
    exact components_ofComponents h

theorem injOn_spelling : Set.InjOn spelling {cs | Canonical cs} := by
  intro cs hcs cs' hcs' h
  rw [← components_spelling hcs, ← components_spelling hcs', h]

theorem components_display (p : Path) : (⟨p.display⟩ : Path).components = p.components := by
  rw [display_eq]
  exact components_spelling (canonical_components p)

theorem display_eq_iff (p q : Path) : p.display = q.display ↔ p.components = q.components := by
  rw [display_eq, display_eq]
  exact injOn_spelling.eq_iff (canonical_components p) (canonical_components q)

example : display "/a//./b/" = "//a/b".toList ∧ display "./a/../." = "./a/..".toList := by decide

end Path

namespace SymbolIndex

open Declutter.Symbol

variable {x : Lexicon} {units : List SourceUnit} {name : Text}

theorem filesOf_ofUnits (x : Lexicon) (units : List SourceUnit) (name : Text) :
    (ofUnits x units).filesOf name = filesDefining x units name := by
  by_cases h : ∃ u ∈ units, name ∈ definitions x u.text
  · rw [filesOf, definingFiles?, find?_ofUnits h]
    rfl
  · have hfind : (ofUnits x units).find? name = none :=
      Option.eq_none_iff_forall_ne_some.2 fun y hy => h (defined_of_find? hy)
    have hnone : (units.filter fun u => (definitions x u.text).contains name) = [] :=
      List.filter_eq_nil_iff.2 fun u hu hdef => h ⟨u, hu, by simpa using hdef⟩
    rw [filesOf, definingFiles?, hfind, filesDefining, hnone]
    rfl

theorem mem_filesDefining {u : SourceUnit} : u.display ∈ filesDefining x units name ↔
    ∃ v ∈ units, name ∈ definitions x v.text ∧
      v.relative.components = u.relative.components := by
  simp only [filesDefining, Ordered.mem_ofList, List.mem_map, List.mem_filter,
    List.contains_iff_mem, and_assoc]
  exact exists_congr fun v => and_congr_right fun _ => and_congr_right fun _ =>
    Path.display_eq_iff v.relative u.relative

/-- Files that define a name are counted by their components. -/
theorem length_filesDefining (x : Lexicon) (units : List SourceUnit) (name : Text) :
    (filesDefining x units name).length =
      ((units.filter fun u => (definitions x u.text).contains name).map
        (·.relative.components)).toFinset.card := by
  let paths := (units.filter fun u => (definitions x u.text).contains name).map
    (·.relative.components)
  have hfiles : (filesDefining x units name).toFinset = paths.toFinset.image Path.spelling := by
    ext file
    simp only [filesDefining, paths, List.mem_toFinset, Ordered.mem_ofList, Finset.mem_image,
      List.mem_map, exists_exists_and_eq_and]
    rfl
  have hcanonical : ∀ cs ∈ paths, Path.Canonical cs := by
    intro cs hcs
    obtain ⟨u, -, rfl⟩ := List.mem_map.1 hcs
    exact Path.canonical_components u.relative
  have hnodup : (filesDefining x units name).Nodup := Ordered.nodup_ofList _
  rw [← List.toFinset_card_of_nodup hnodup, hfiles]
  refine Finset.card_image_of_injOn (Path.injOn_spelling.mono fun cs hcs => ?_)
  exact hcanonical cs (List.mem_toFinset.1 hcs)

/-- **Keys identify files.** Two paths, relative or absolute, are displayed alike if they have the
same components, and only then. What is displayed has the components of the path, and is displayed
as it is. So a unit is among the files that define a name if a unit with the same components defines
it, and as many files are counted as there are different components. -/
theorem keys_identify_files :
    (∀ p q : Path, p.display = q.display ↔ p.components = q.components) ∧
    (∀ p : Path, (⟨p.display⟩ : Path).components = p.components ∧
      (⟨p.display⟩ : Path).display = p.display) ∧
    ∀ (x : Lexicon) (units : List SourceUnit) (name : Text),
      (∀ u : SourceUnit, u.display ∈ (ofUnits x units).filesOf name ↔
        ∃ v ∈ units, name ∈ definitions x v.text ∧
          v.relative.components = u.relative.components) ∧
      ((ofUnits x units).filesOf name).length =
        ((units.filter fun u => (definitions x u.text).contains name).map
          (·.relative.components)).toFinset.card := by
  refine ⟨Path.display_eq_iff, fun p => ?_, fun x units name => ?_⟩
  · have hcomponents := Path.components_display p
    exact ⟨hcomponents, (Path.display_eq_iff _ p).2 hcomponents⟩
  · rw [filesOf_ofUnits]
    exact ⟨fun u => mem_filesDefining, length_filesDefining x units name⟩

end SymbolIndex

end Declutter
