import Mathlib
import Declutter.Proofs.Comment.LineComment
import Declutter.Proofs.Scrub.Lines

/-!
# What is written in a block comment

A block comment leaves the line feeds that are in it, whatever else it has
(`stripBlocks_append_block`). So one can be put in place of another exactly if they have the same
number of line feeds (`scrub_block_eq_iff`): nothing that is found later, no method and no marker,
depends on anything else. Where the comment stands no other may be open, and the text before it is
then taken by itself (`stripBlocks_append`).
-/

namespace Declutter

open Text

namespace Comment

variable {opener closer a t u : Text}

/-- A text whose block comments are closed does not change what follows it, if no opener begins in
the one and ends in the other. -/
theorem stripBlocks_append (h : BlocksClosed opener closer a) (hon : ¬ (opener = [] ∨ closer = []))
    (hseam : ∀ p, cut? opener p = none →
      cut? opener (p ++ t) = (cut? opener t).map fun x => (p ++ x.1, x.2)) :
    stripBlocks opener closer (a ++ t) =
      stripBlocks opener closer a ++ stripBlocks opener closer t := by
  induction h with
  | none hnone => rw [stripBlocks_append_of_cut? (hseam _ hnone), stripBlocks_of_none hnone]
  | block ho hc _ ih =>
    rw [stripBlocks_of_block hon (cut?_append ho _) (cut?_append hc _), ih,
      stripBlocks_of_block hon ho hc]
    simp only [List.append_assoc]

/-- Of a block comment its line feeds are left. -/
theorem stripBlocks_block (hu : ¬ ['*', '/'] <:+: u) (b : Text) :
    stripBlocks ['/', '*'] ['*', '/'] ('/' :: '*' :: (u ++ '*' :: '/' :: b)) =
      List.replicate (feeds u) '\n' ++ stripBlocks ['/', '*'] ['*', '/'] b := by
  have hopen : cut? ['/', '*'] ('/' :: '*' :: (u ++ '*' :: '/' :: b)) =
      some ([], u ++ '*' :: '/' :: b) := cut?_append_marker (a := []) (by decide) (by decide) _
  have hclose : cut? ['*', '/'] (u ++ '*' :: '/' :: b) = some (u, b) :=
    cut?_append_marker (by decide) hu b
  have hfeeds : (['/', '*'] ++ u ++ ['*', '/']).filter (· == '\n') =
      List.replicate (feeds u) '\n' := by
    simp [List.filter_beq, feeds]
  rw [stripBlocks_of_block (by simp) hopen hclose, hfeeds, List.nil_append]

theorem stripBlocks_append_block (ha : BlocksClosed ['/', '*'] ['*', '/'] a)
    (hu : ¬ ['*', '/'] <:+: u) (b : Text) :
    stripBlocks ['/', '*'] ['*', '/'] (a ++ ['/', '*'] ++ u ++ ['*', '/'] ++ b) =
      stripBlocks ['/', '*'] ['*', '/'] a ++
        (List.replicate (feeds u) '\n' ++ stripBlocks ['/', '*'] ['*', '/'] b) := by
  have hsplit : a ++ ['/', '*'] ++ u ++ ['*', '/'] ++ b =
      a ++ '/' :: '*' :: (u ++ '*' :: '/' :: b) := by simp
  rw [hsplit, stripBlocks_append ha (by simp), stripBlocks_block hu]
  intro p hp
  exact cut?_append_of_seam (cut?_eq_none_iff.1 hp) fun _ => by simp

end Comment

variable {c : Config} {a u v : Text}

theorem length_lines_scrub (hc : c.lexicon = .csharp) (source : Text) :
    (c.scrub source).text.lines.length =
      source.lines.length + (c.scrub source).annotated.length := by
  have hwoven := woven_scrub (c := c) (by rw [hc]; decide) (by rw [hc]; decide) source
  have hlines := (Comment.strip_thins (x := c.lexicon) (by rw [hc]; decide) source).length_eq
  rw [hwoven.length, hlines, List.length_map]

/-- **What is written in a block comment** does not show, except for the number of its lines. -/
theorem scrub_block_eq_iff (hc : c.lexicon = .csharp)
    (ha : Comment.BlocksClosed ['/', '*'] ['*', '/'] a) (hu : ¬ ['*', '/'] <:+: u)
    (hv : ¬ ['*', '/'] <:+: v) (b : Text) :
    c.scrub (a ++ ['/', '*'] ++ u ++ ['*', '/'] ++ b) =
        c.scrub (a ++ ['/', '*'] ++ v ++ ['*', '/'] ++ b) ↔ feeds u = feeds v := by
  constructor
  · intro hsame
    have hlu := length_lines_scrub hc (a ++ ['/', '*'] ++ u ++ ['*', '/'] ++ b)
    have hlv := length_lines_scrub hc (a ++ ['/', '*'] ++ v ++ ['*', '/'] ++ b)
    rw [hsame, hlv] at hlu
    simp only [length_lines, feeds_append] at hlu
    omega
  · intro hfeeds
    have hstrip : Comment.strip .csharp (a ++ ['/', '*'] ++ u ++ ['*', '/'] ++ b) =
        Comment.strip .csharp (a ++ ['/', '*'] ++ v ++ ['*', '/'] ++ b) := by
      rw [Comment.strip_csharp, Comment.strip_csharp, Comment.stripBlocks_append_block ha hu,
        Comment.stripBlocks_append_block ha hv, hfeeds]
    simp only [Config.scrub, hc, hstrip]

/-- The comment begins right behind a slash. One text put into it begins as if it ended the opener
and has a brace, the other has a method and ends as if another comment began. -/
theorem scrub_block_eq_iff_brace :
    (Comment.BlocksClosed ['/', '*'] ['*', '/'] "/* a */ int /".toList ∧
      ¬ ['*', '/'] <:+: "/ // \x7b\n*".toList ∧ ¬ ['*', '/'] <:+: "\r\nnew F() \x7d /*".toList ∧
      feeds "/ // \x7b\n*".toList = feeds "\r\nnew F() \x7d /*".toList) ∧
    Config.standard.scrub ("/* a */ int /".toList ++ ['/', '*'] ++ "/ // \x7b\n*".toList ++
        ['*', '/'] ++ " b */".toList) =
      Config.standard.scrub ("/* a */ int /".toList ++ ['/', '*'] ++ "\r\nnew F() \x7d /*".toList ++
        ['*', '/'] ++ " b */".toList) := by
  have ha : Comment.BlocksClosed ['/', '*'] ['*', '/'] "/* a */ int /".toList :=
    .block rfl rfl (.none rfl)
  have hu : ¬ ['*', '/'] <:+: "/ // \x7b\n*".toList := by decide
  have hv : ¬ ['*', '/'] <:+: "\r\nnew F() \x7d /*".toList := by decide
  have hfeeds : feeds "/ // \x7b\n*".toList = feeds "\r\nnew F() \x7d /*".toList := by decide
  exact ⟨⟨ha, hu, hv, hfeeds⟩, (scrub_block_eq_iff rfl ha hu hv " b */".toList).2 hfeeds⟩

end Declutter
