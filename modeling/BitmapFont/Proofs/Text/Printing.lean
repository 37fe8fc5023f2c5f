import BitmapFont.Proofs.Text.Drawing
import Mathlib.Data.List.GetD

/-!
Canvases in `#` and `.`.

The picture of a canvas has a line for every row and a line feed after each, so a picture
without any line tells nothing about the width of its canvas. Rendered text has a row at
least, even if it has no column. Main facts:

* `TextCanvas.pictured_artLines`, `TextCanvas.splitOn_asciiArt`: what the lines of a
  picture show, and that it falls into them at its line feeds;
* `TextCanvas.ofArt_asciiArt`, `TextCanvas.asciiArt_inj`: a canvas with a row is read back
  from its picture;
* `Sequence.asciiArt_determines_canvas`: pictures of rendered text.
-/

namespace BitmapFont

/-- Lines with a line feed after each are found again by splitting. -/
theorem splitOn_terminated {lines : List (List Char)} (whole : ∀ line ∈ lines, '\n' ∉ line) :
    (lines.flatMap (· ++ ['\n'])).splitOn '\n' = lines ++ [[]] := by
  induction lines with
  | nil => rfl
  | cons line rest ih =>
      obtain ⟨first, later⟩ := List.forall_mem_cons.mp whole
      rw [List.flatMap_cons, List.append_assoc, List.singleton_append,
        List.splitOn_append_cons_self_of_not_mem first, ih later, List.cons_append]

namespace TextCanvas

/-- Lines that picture a canvas: one for every row, with one sign for every column, which
tells whether the pixel there is set. -/
structure Pictured (c : TextCanvas) (lines : List (List Char)) : Prop where
  height : lines.length = c.height
  width : ∀ line ∈ lines, line.length = c.width
  sign : ∀ (y : Nat) (row : y < lines.length) (x : Nat) (column : x < lines[y].length),
    lines[y][x] = if c.pixel x y then '#' else '.'

/-- The canvas that a picture shows, of the width of its first line. -/
def ofArt (art : String) : TextCanvas :=
  let lines := (art.toList.splitOn '\n').dropLast
  Grid.ofFn (lines.headD []).length lines.length fun x y => (lines.getD y []).getD x '.' == '#'

/-! ### The lines of a picture -/

def artLines (c : TextCanvas) : List (List Char) :=
  (List.range c.height).map c.artLine

section
variable (c : TextCanvas)

theorem toList_asciiArt : c.asciiArt.toList = c.artLines.flatMap (· ++ ['\n']) := by
  rw [asciiArt, String.toList_ofList, artLines, List.flatMap_map]

theorem pictured_artLines : c.Pictured c.artLines where
  height := by rw [artLines, List.length_map, List.length_range]
  width := by
    intro line mem
    obtain ⟨y, -, rfl⟩ := List.mem_map.mp mem
    rw [artLine, List.length_map, List.length_range]
  sign := by
    intro y row x column
    simp [artLines, artLine]

theorem splitOn_asciiArt : c.asciiArt.toList.splitOn '\n' = c.artLines ++ [[]] := by
  rw [toList_asciiArt]
  apply splitOn_terminated
  intro line mem feed
  obtain ⟨y, -, rfl⟩ := List.mem_map.mp mem
  obtain ⟨x, -, sign⟩ := List.mem_map.mp feed
  split at sign
  · exact absurd sign (by decide)
  · exact absurd sign (by decide)

end

/-! ### Reading a picture -/

variable {c : TextCanvas}

/-- The first line of a picture is as wide as its canvas, if there is one. -/
theorem Pictured.length_headD {lines : List (List Char)} (pictured : c.Pictured lines)
    (pos : 0 < c.height) : (lines.headD []).length = c.width := by
  cases lines with
  | nil => exact absurd pictured.height (Nat.ne_of_lt pos)
  | cons line rest => exact pictured.width line List.mem_cons_self

theorem Pictured.shown {lines : List (List Char)} (pictured : c.Pictured lines) {x y : Nat}
    (column : x < c.width) (row : y < c.height) :
    ((lines.getD y []).getD x '.' == '#') = c.pixel x y := by
  have row' : y < lines.length := pictured.height ▸ row
  have column' : x < lines[y].length := by
    rwa [pictured.width _ (List.getElem_mem row')]
  rw [List.getD_eq_getElem _ _ row', List.getD_eq_getElem _ _ column',
    pictured.sign y row' x column']
  cases c.pixel x y
  · rfl
  · rfl

theorem ofArt_asciiArt (pos : 0 < c.height) : ofArt c.asciiArt = c := by
  have pictured := c.pictured_artLines
  have lines : (c.asciiArt.toList.splitOn '\n').dropLast = c.artLines := by
    rw [splitOn_asciiArt, List.dropLast_concat]
  have width : (ofArt c.asciiArt).width = c.width := by
    simp only [ofArt, lines]
    exact pictured.length_headD pos
  have height : (ofArt c.asciiArt).height = c.height := by
    simp only [ofArt, lines]
    exact pictured.height
  apply Grid.ext_cells false width height
  rintro x y ⟨column, row⟩
  rw [width] at column
  rw [height] at row
  simp only [ofArt, lines]
  rw [Grid.getD_ofFn, pictured.length_headD pos, pictured.height, if_pos ⟨column, row⟩]
  exact pictured.shown column row

/-- Canvases with a row are told apart by their pictures. -/
theorem asciiArt_inj {c' : TextCanvas} (pos : 0 < c.height) (pos' : 0 < c'.height) :
    c.asciiArt = c'.asciiArt ↔ c = c' := by
  constructor
  · intro same
    rw [← ofArt_asciiArt pos, same, ofArt_asciiArt pos']
  · exact congrArg asciiArt

/-- Canvases without a row are not. -/
example : (blank 1 0).asciiArt = (blank 2 0).asciiArt := by decide

end TextCanvas

namespace Sequence

open TextCanvas

theorem height_renderText_pos (q : Sequence) (text : List Char) :
    0 < (q.renderText text).height := by
  have rows := q.lineTop_add_le (Nat.zero_le (q.finalPen .start (latin1 text)).line)
  have pos := q.height_pos
  rw [height_renderText]
  omega

/-- The picture of rendered text consists of one line for every row of the canvas, each of
one `#` or `.` for every column and a line feed, and it falls into these lines where it is
split at line feeds. So the canvas can be read back from it, and texts of any sequences have
one picture exactly if their canvases are equal. -/
theorem asciiArt_determines_canvas (q : Sequence) (text : List Char) :
    (∃ lines, (q.renderText text).asciiArt.toList = lines.flatMap (· ++ ['\n']) ∧
      (q.renderText text).asciiArt.toList.splitOn '\n' = lines ++ [[]] ∧
      (q.renderText text).Pictured lines) ∧
    ofArt (q.renderText text).asciiArt = q.renderText text ∧
    ∀ (q' : Sequence) (text' : List Char),
      (q.renderText text).asciiArt = (q'.renderText text').asciiArt ↔
        q.renderText text = q'.renderText text' := by
  have pos := q.height_renderText_pos text
  refine ⟨⟨_, toList_asciiArt _, splitOn_asciiArt _, pictured_artLines _⟩,
    ofArt_asciiArt pos, ?_⟩
  intro q' text'
  exact asciiArt_inj pos (q'.height_renderText_pos text')

end Sequence

end BitmapFont
