/-
# Where a string stands on the screen

The reference is the layout of a text on a grid of 80 columns: `print` puts every character of a
string that needs at most 20 rows in the cell of its place, from the first cell to the last, and
changes no other (`terminal_layout`).

The state of the terminal between two characters of a line is `AtChar`: the column may be one behind the
last, since the terminal moves on with the next character only.  A character goes to its cell
(`AtChar.char`) and a newline ends the line wherever it is (`AtChar.newline`); a line is an induction on
its characters, and the text the induction on its lines that comes with the grid (`printText`).

A string that needs more rows than there are begins again at the top, over what is there; about such a
string the layout says nothing, but that it stays on the screen.
-/
import KokoOs.Terminal
import KokoOs.Lib.Grid

namespace KokoOs

open Grid

/-! ## 1. Characters in cells -/

/-- The characters of `cells` are stored one after the other, in the colour of `print`. -/
def putCells (m : Nat → UInt16) (cells : List (Nat × UInt8)) : Nat → UInt16 :=
  cells.foldl (fun m p => Function.update m p.1 (terminalMakeChar p.2 0xF)) m

theorem putCells_append (m : Nat → UInt16) (cells cells' : List (Nat × UInt8)) :
    putCells m (cells ++ cells') = putCells (putCells m cells) cells' := List.foldl_append

theorem putCells_of_not_mem {cells : List (Nat × UInt8)} {x : Nat} (m : Nat → UInt16)
    (h : x ∉ cells.map Prod.fst) : putCells m cells x = m x := by
  induction cells generalizing m with
  | nil => rfl
  | cons p cells ih =>
    simp only [List.map_cons, List.mem_cons, not_or] at h
    exact (ih _ h.2).trans (Function.update_of_ne h.1 _ _)

/-- Different cells keep their characters. -/
theorem putCells_of_mem {cells : List (Nat × UInt8)} {p : Nat × UInt8} (m : Nat → UInt16)
    (hnd : (cells.map Prod.fst).Nodup) (hp : p ∈ cells) :
    putCells m cells p.1 = terminalMakeChar p.2 0xF := by
  induction cells generalizing m with
  | nil => simp at hp
  | cons q cells ih =>
    obtain ⟨hq, hnd⟩ := List.nodup_cons.mp hnd
    rcases List.mem_cons.mp hp with rfl | hp
    · exact (putCells_of_not_mem _ hq).trans (Function.update_self _ _ _)
    · exact ih _ hnd hp

/-- From `t` to `t'`, the characters of `cells` have been printed. -/
structure Printed (cells : List (Nat × UInt8)) (t t' : Terminal) : Prop where
  stored : t'.stored = t.stored ++ cells.map Prod.fst
  videoMem : t'.videoMem = putCells t.videoMem cells

theorem Printed.refl (t : Terminal) : Printed [] t t := ⟨by simp, rfl⟩

theorem Printed.trans {cells cells' : List (Nat × UInt8)} {t t' t'' : Terminal}
    (h : Printed cells t t') (h' : Printed cells' t' t'') : Printed (cells ++ cells') t t'' where
  stored := by rw [h'.stored, h.stored, List.map_append, List.append_assoc]
  videoMem := by rw [h'.videoMem, h.videoMem, putCells_append]

/-! ## 2. Along a line -/

/-- The terminal is at character `k` of a line that begins at `row`. -/
structure AtChar (row k : Nat) (t : Terminal) : Prop where
  column : t.currentTerminalX ≤ vgaWidth
  cell : vgaWidth * t.currentTerminalY + t.currentTerminalX = vgaWidth * row + k
  front : t.currentTerminalX = 0 ↔ k = 0

/-- The state of the terminal after the characters of `text`. -/
def printChars (text : List UInt8) (t : Terminal) : Terminal :=
  text.foldl (fun t c => terminalWriteChar c 0xF t) t

section

variable {row k : Nat} {t : Terminal} {c : UInt8}

/-- Where the next character goes. -/
theorem AtChar.next (h : AtChar row k t) (hin : vgaWidth * row + k < vgaWidth * vgaHeight) :
    t.nextX < vgaWidth ∧ vgaWidth * t.nextY + t.nextX = vgaWidth * row + k := by
  obtain ⟨hcol, hcell, hfront⟩ := h
  unfold Terminal.nextX Terminal.nextY
  simp only [vgaWidth, vgaHeight] at *
  split
  · rw [if_neg (by omega)]
    omega
  · rw [if_neg (by omega)]
    omega

/-- **The next character goes to its cell**, if that is on the screen. -/
theorem AtChar.char (h : AtChar row k t) (hc : c ≠ 10)
    (hin : vgaWidth * row + k < vgaWidth * vgaHeight) :
    Printed [(vgaWidth * row + k, c)] t (terminalWriteChar c 0xF t) ∧
      AtChar row (k + 1) (terminalWriteChar c 0xF t) := by
  obtain ⟨hx, hnext⟩ := h.next hin
  have hcell : t.nextCell = vgaWidth * row + k := by
    unfold Terminal.nextCell
    rw [Nat.mul_comm, hnext]
  have hwrap : (t.nextX + 1) % 65536 = t.nextX + 1 := Nat.mod_eq_of_lt (by
    simp only [vgaWidth] at hx
    omega)
  rw [terminalWriteChar_char hc, hcell, hwrap]
  exact ⟨⟨rfl, rfl⟩, ⟨hx, by rw [← Nat.add_assoc, hnext, Nat.add_assoc], by simp⟩⟩

/-- **A newline ends the line**, wherever it is. -/
theorem AtChar.newline (h : AtChar row k t) (hin : vgaWidth * row + k ≤ vgaWidth * vgaHeight) :
    Printed [] t (terminalWriteChar 10 0xF t) ∧
      AtChar (row + max 1 ((k + vgaWidth - 1) / vgaWidth)) 0 (terminalWriteChar 10 0xF t) := by
  obtain ⟨hcol, hcell, hfront⟩ := h
  rw [terminalWriteChar_newline]
  refine ⟨⟨by simp, rfl⟩, ⟨Nat.zero_le _, ?_, by simp⟩⟩
  simp only [vgaWidth, vgaHeight] at *
  omega

end

/-- The characters of a line go to its cells, one behind the other. -/
theorem printLine {line : List UInt8} {row k : Nat} {t : Terminal} (h : AtChar row k t)
    (hline : 10 ∉ line) (hin : vgaWidth * row + k + line.length ≤ vgaWidth * vgaHeight) :
    Printed ((List.range' (vgaWidth * row + k) line.length).zip line) t (printChars line t) ∧
      AtChar row (k + line.length) (printChars line t) := by
  induction line generalizing k t with
  | nil => exact ⟨Printed.refl t, h⟩
  | cons c line ih =>
    simp only [List.mem_cons, not_or] at hline
    rw [List.length_cons] at hin ⊢
    obtain ⟨hone, hat⟩ := h.char (Ne.symm hline.1) (by omega)
    obtain ⟨hrest, hat'⟩ := ih hat hline.2 (by omega)
    rw [List.range'_succ, List.zip_cons_cons]
    refine ⟨hone.trans hrest, ?_⟩
    rw [Nat.add_comm line.length 1, ← Nat.add_assoc]
    exact hat'

/-! ## 3. A whole string -/

/-- The characters of a text with their cells. -/
def textCells (row : Nat) (text : List UInt8) : List (Nat × UInt8) :=
  (layout vgaWidth 10 row text).map fun p => (cell vgaWidth p.1, p.2)

theorem placeLine_zip (row : Nat) (line : List UInt8) :
    (placeLine vgaWidth row line).map (fun p => (cell vgaWidth p.1, p.2))
      = (List.range' (vgaWidth * row) line.length).zip line := by
  unfold placeLine
  refine List.ext_getElem (by simp) fun i h1 h2 => ?_
  simp [cell_place]

/-- **A text that begins on a fresh row is printed where the layout has it**, if its rows are on the
screen. -/
theorem printText (text : List UInt8) {row : Nat} {t : Terminal} (h : AtChar row 0 t)
    (hin : row + textRows vgaWidth 10 text ≤ vgaHeight) :
    Printed (textCells row text) t (printChars text t) := by
  unfold textCells
  induction text using lines_induction (10 : UInt8) generalizing row t with
  | last line hline =>
    rw [textRows_last hline] at hin
    rw [layout_last hline, placeLine_zip]
    have hroom := length_le_lineRows (by decide : 0 < vgaWidth) line
    have hrows := Nat.mul_le_mul_left vgaWidth hin
    rw [Nat.mul_add] at hrows
    exact (printLine h hline (by omega)).1
  | cons line rest hline ih =>
    rw [textRows_cons hline, ← Nat.add_assoc] at hin
    rw [layout_cons hline, List.map_append, placeLine_zip]
    have hroom := line_end_le (by decide : 0 < vgaWidth) row line
    have hrows := Nat.mul_le_mul_left vgaWidth (Nat.le_of_add_right_le hin)
    obtain ⟨hchars, hat⟩ := printLine h hline (by omega)
    obtain ⟨hbreak, hat'⟩ := hat.newline (by omega)
    rw [Nat.zero_add] at hat'
    have hrest := ih hat' hin
    unfold printChars at hrest ⊢
    rw [List.foldl_append, List.foldl_cons]
    exact hchars.trans (hbreak.trans hrest)

/-- The loop of `print` writes the characters of the string. -/
theorem printLoop_eq {msg : CStr} {text : List UInt8} {i : Nat} (t : Terminal)
    (h : ReadsAt msg i text) : printLoop msg text.length i t = printChars text t := by
  induction text generalizing i t with
  | nil => rfl
  | cons c text ih =>
    obtain ⟨hc, hrest⟩ := readsAt_cons.mp h
    rw [List.length_cons, printLoop, hc]
    exact ih _ hrest

/-- What `print` should do to a cleared screen: every character of the string but the newlines is in
the cell of its place, the cells have been stored to in strictly increasing order, and all others
are what they were. -/
structure PrintsLayout (bytes : List UInt8) (t t' : Terminal) : Prop where
  all : (layout vgaWidth 10 0 bytes).map Prod.snd = bytes.filter (· != 10)
  stored : t'.stored = t.stored ++ (textCells 0 bytes).map Prod.fst
  increasing : ((textCells 0 bytes).map Prod.fst).Pairwise (· < ·)
  shown : ∀ p ∈ layout vgaWidth 10 0 bytes, (t'.videoMem (cell vgaWidth p.1)).toUInt8 = p.2
  kept : ∀ x ∉ (textCells 0 bytes).map Prod.fst, t'.videoMem x = t.videoMem x

theorem map_fst_textCells (row : Nat) (text : List UInt8) : (textCells row text).map Prod.fst
    = (layout vgaWidth 10 row text).map fun p => cell vgaWidth p.1 := by
  unfold textCells
  rw [List.map_map]
  rfl

/-- **A text that has room on the cleared screen is shown there.** -/
theorem printChars_layout {text : List UInt8} (t : Terminal)
    (hrows : textRows vgaWidth 10 text ≤ vgaHeight) :
    PrintsLayout text (terminalClear t) (printChars text (terminalClear t)) := by
  have hat : AtChar 0 0 (terminalClear t) := ⟨Nat.zero_le _, rfl, iff_of_true rfl rfl⟩
  obtain ⟨hstored, hmem⟩ := printText text hat (by rwa [Nat.zero_add])
  have hinc : ((textCells 0 text).map Prod.fst).Pairwise (· < ·) := by
    rw [map_fst_textCells]
    exact layout_increasing (by decide) text 0
  refine ⟨layout_chars text 0, hstored, hinc, fun p hp => ?_, fun x hx => ?_⟩
  · rw [hmem, putCells_of_mem _ (hinc.imp fun h => Nat.ne_of_lt h) (List.mem_map.mpr ⟨p, hp, rfl⟩)]
    exact toUInt8_makeChar _ _
  · rw [hmem]
    exact putCells_of_not_mem _ hx

/-- **The layout on the screen.**  After a clear, every sequence of characters is stored to cells of
the screen only; and a string that needs at most 20 rows is printed as it is laid out. -/
theorem terminal_layout :
    (∀ (t : Terminal) (calls : List (UInt8 × UInt8)), ∃ new,
      (terminalWriteChars calls (terminalClear t)).stored = (terminalClear t).stored ++ new ∧
        ∀ x ∈ new, x < vgaWidth * vgaHeight) ∧
    ∀ (t : Terminal) (msg : CStr) (bytes : List UInt8), Spells msg bytes →
      textRows vgaWidth 10 bytes ≤ vgaHeight →
      ∃ t', print msg (terminalClear t) = some t' ∧ PrintsLayout bytes (terminalClear t) t' := by
  refine ⟨fun t calls => terminalWriteChars_onScreen calls (terminalClear t), ?_⟩
  intro t msg bytes hmsg hrows
  have hlen : bytes.length < 65536 := by
    have hroom := length_le_textRows (by decide : 0 < vgaWidth) (10 : UInt8) bytes
    have hmost := Nat.mul_le_mul_left (vgaWidth + 1) hrows
    simp only [vgaWidth, vgaHeight] at *
    omega
  refine ⟨printChars bytes (terminalClear t), ?_, printChars_layout t hrows⟩
  unfold print
  rw [hmsg.strlen hlen]
  exact congrArg some (printLoop_eq (terminalClear t) hmsg.readsAt)

/-- Two lines, on a terminal that was somewhere else. -/
theorem terminal_layout_two_lines : ∃ t', print (literal [97, 98, 10, 99])
      (terminalClear ⟨fun _ => 7, 80, 65535, []⟩) = some t' ∧
    PrintsLayout [97, 98, 10, 99] (terminalClear ⟨fun _ => 7, 80, 65535, []⟩) t' :=
  terminal_layout.2 _ _ _ (spells_literal (by decide)) (by decide)

end KokoOs
