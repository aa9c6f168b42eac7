/-
# Text on a grid

A text is laid out on a grid of `w` columns by breaking it at its separators, and each of its lines
after every `w` characters.  `layout` gives every character its place, `textRows` says how many rows
that takes; a line behind the last separator takes one only if there is something in it.

* **Cells.**  The cells of the grid are counted row by row.  Character `i` of a line that begins at
  row `row` is in cell `w * row + i` (`cell_place`), so the cells of a text are strictly increasing
  (`layout_increasing`), and no two characters share one.
* **Characters.**  None is lost in the layout, and none but the separators is left out (`layout_chars`).
* **Induction.**  `lines_induction` is the induction over the lines of a text; with it a program
  that writes character by character is followed line by line.
-/
import Mathlib.Data.List.Basic
import Mathlib.Data.List.Range
import Mathlib.Tactic.Common

namespace Grid

variable {α : Type}

/-! ## 1. Places -/

/-- The row and the column of character `i` of a line that begins at `row`. -/
def place (w row i : Nat) : Nat × Nat := (row + i / w, i % w)

/-- The number of a place, row by row. -/
def cell (w : Nat) (p : Nat × Nat) : Nat := p.1 * w + p.2

/-- How many rows the characters of a line fill. -/
def lineRows (w : Nat) (line : List α) : Nat := (line.length + w - 1) / w

/-- The characters of a line with their places. -/
def placeLine (w row : Nat) (line : List α) : List ((Nat × Nat) × α) :=
  line.mapIdx fun i c => (place w row i, c)

/-- The characters of all lines.  An empty line takes a row, too. -/
def placeLines (w row : Nat) : List (List α) → List ((Nat × Nat) × α)
  | [] => []
  | line :: lines => placeLine w row line ++ placeLines w (row + max 1 (lineRows w line)) lines

/-- How many rows the lines take. -/
def linesRows (w : Nat) : List (List α) → Nat
  | [] => 0
  | [line] => lineRows w line
  | line :: lines => max 1 (lineRows w line) + linesRows w lines

/-- The characters of a text with their places, if it begins at `row`. -/
def layout [BEq α] (w : Nat) (sep : α) (row : Nat) (text : List α) : List ((Nat × Nat) × α) :=
  placeLines w row (text.splitOn sep)

/-- How many rows the text takes. -/
def textRows [BEq α] (w : Nat) (sep : α) (text : List α) : Nat := linesRows w (text.splitOn sep)

/-! ## 2. The characters of a line -/

section

variable {w row : Nat} {line : List α}

theorem placeLine_chars (w row : Nat) (line : List α) : (placeLine w row line).map Prod.snd = line := by
  unfold placeLine
  refine List.ext_getElem (by simp) fun i h1 h2 => ?_
  simp

/-- Character `i` of a line is `i` cells behind its beginning. -/
theorem cell_place (w row i : Nat) : cell w (place w row i) = w * row + i := by
  unfold cell place
  dsimp only
  rw [Nat.add_mul, Nat.mul_comm row, Nat.mul_comm (i / w), Nat.add_assoc, Nat.div_add_mod]

theorem placeLine_cells (w row : Nat) (line : List α) :
    (placeLine w row line).map (fun p => cell w p.1) = List.range' (w * row) line.length := by
  unfold placeLine
  refine List.ext_getElem (by simp) fun i h1 h2 => ?_
  simp [cell_place]

/-- The rows of a line have room for it. -/
theorem length_le_lineRows (hw : 0 < w) (line : List α) : line.length ≤ w * lineRows w line := by
  unfold lineRows
  have hdiv := Nat.div_add_mod (line.length + w - 1) w
  have hmod := Nat.mod_lt (line.length + w - 1) hw
  omega

/-- What comes behind a line begins behind its characters. -/
theorem line_end_le (hw : 0 < w) (row : Nat) (line : List α) :
    w * row + line.length ≤ w * (row + max 1 (lineRows w line)) := by
  rw [Nat.mul_add]
  exact Nat.add_le_add_left ((length_le_lineRows hw line).trans
    (Nat.mul_le_mul_left w (Nat.le_max_right _ _))) _

end

/-! ## 3. Line by line -/

section

variable [BEq α] [LawfulBEq α] {w row : Nat} {sep : α} {line rest : List α}

/-- **Induction over the lines of a text.** -/
theorem lines_induction {P : List α → Prop} (sep : α) (last : ∀ line, sep ∉ line → P line)
    (cons : ∀ line rest, sep ∉ line → P rest → P (line ++ sep :: rest)) (text : List α) : P text := by
  induction h : text.length using Nat.strong_induction_on generalizing text with
  | h n ih =>
    by_cases hmem : sep ∈ text
    · obtain ⟨line, rest, rfl, hline⟩ := List.eq_append_cons_of_mem hmem
      refine cons line rest hline (ih rest.length ?_ rest rfl)
      simp only [List.length_append, List.length_cons] at h
      omega
    · exact last text hmem

theorem layout_last (h : sep ∉ line) : layout w sep row line = placeLine w row line := by
  unfold layout
  rw [List.splitOn_eq_singleton h, placeLines, placeLines, List.append_nil]

theorem layout_cons (h : sep ∉ line) : layout w sep row (line ++ sep :: rest)
    = placeLine w row line ++ layout w sep (row + max 1 (lineRows w line)) rest := by
  unfold layout
  rw [List.splitOn_append_cons_self_of_not_mem h, placeLines]

theorem textRows_last (h : sep ∉ line) : textRows w sep line = lineRows w line := by
  unfold textRows
  rw [List.splitOn_eq_singleton h, linesRows]

theorem textRows_cons (h : sep ∉ line) : textRows w sep (line ++ sep :: rest)
    = max 1 (lineRows w line) + textRows w sep rest := by
  unfold textRows
  rw [List.splitOn_append_cons_self_of_not_mem h]
  obtain ⟨l, ls, hls⟩ := List.exists_cons_of_ne_nil (List.splitOn_ne_nil sep rest)
  rw [hls, linesRows]
  exact List.cons_ne_nil _ _

/-! ## 4. The cells of a text -/

/-- **No character is lost**, and none but the separators is left out. -/
theorem layout_chars (text : List α) (row : Nat) :
    (layout w sep row text).map Prod.snd = text.filter (· != sep) := by
  have hline : ∀ {line : List α}, sep ∉ line → line.filter (· != sep) = line := by
    intro line h
    refine List.filter_eq_self.mpr fun c hc => ?_
    simpa using fun heq : c = sep => h (heq ▸ hc)
  induction text using lines_induction sep generalizing row with
  | last line h => rw [layout_last h, placeLine_chars, hline h]
  | cons line rest h ih =>
    rw [layout_cons h, List.map_append, placeLine_chars, ih, List.filter_append, hline h]
    simp

/-- The cells of a text are not above the row it begins at. -/
theorem le_cell (hw : 0 < w) (text : List α) (row : Nat) :
    ∀ x ∈ (layout w sep row text).map (fun p => cell w p.1), w * row ≤ x := by
  induction text using lines_induction sep generalizing row with
  | last line h =>
    intro x hx
    rw [layout_last h, placeLine_cells] at hx
    exact (List.mem_range'_1.mp hx).1
  | cons line rest h ih =>
    intro x hx
    rw [layout_cons h, List.map_append, placeLine_cells] at hx
    rcases List.mem_append.mp hx with hx | hx
    · exact (List.mem_range'_1.mp hx).1
    · have hbehind := line_end_le hw row line
      exact (Nat.le_add_right _ _).trans (hbehind.trans (ih _ x hx))

/-- **The cells of a text are strictly increasing.** -/
theorem layout_increasing (hw : 0 < w) (text : List α) (row : Nat) :
    ((layout w sep row text).map fun p => cell w p.1).Pairwise (· < ·) := by
  induction text using lines_induction sep generalizing row with
  | last line h =>
    rw [layout_last h, placeLine_cells]
    exact List.pairwise_lt_range'
  | cons line rest h ih =>
    rw [layout_cons h, List.map_append, placeLine_cells]
    refine List.pairwise_append.mpr ⟨List.pairwise_lt_range', ih _, fun x hx y hy => ?_⟩
    calc x < w * row + line.length := (List.mem_range'_1.mp hx).2
      _ ≤ w * (row + max 1 (lineRows w line)) := line_end_le hw row line
      _ ≤ y := le_cell hw rest _ y hy

/-- A text is no longer than its rows have room for, with a separator each. -/
theorem length_le_textRows (hw : 0 < w) (sep : α) (text : List α) :
    text.length ≤ (w + 1) * textRows w sep text := by
  induction text using lines_induction sep with
  | last line h =>
    rw [textRows_last h]
    exact (length_le_lineRows hw line).trans (Nat.mul_le_mul_right _ (Nat.le_succ w))
  | cons line rest h ih =>
    have hline := line_end_le hw 0 line
    rw [Nat.mul_zero, Nat.zero_add, Nat.zero_add] at hline
    have hone : 1 ≤ max 1 (lineRows w line) := Nat.le_max_left _ _
    rw [textRows_cons h, List.length_append, List.length_cons, Nat.mul_add, Nat.succ_mul]
    omega

end

end Grid
