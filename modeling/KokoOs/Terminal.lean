/-
# The terminal (`lib/terminal.c`)

The screen is an array of cells in the video memory, of a character and a colour each.  Writing a
character moves on lazily: a column behind the last one is only taken back by the next character, and
a row behind the last one by the next character that is printed, so that a newline may leave any row
behind, up to the wrap of the 16-bit counter.

`stored` is the list of the cells that have been stored to, in order; the code keeps no such list.

* **On the screen.**  Whatever row and column the terminal is at, the next cell is one of the screen
  (`nextCell_lt`), so no sequence of calls stores outside of it (`terminalWriteChars_onScreen`).
* **Clearing.**  The two loops of `terminal_clear` go through all cells, column by column
  (`mem_clearedCells`), and leave the whole screen blank (`terminalClear_blank`).
-/
import KokoOs.StrSpec

namespace KokoOs

/-! ## 1. The functions -/

abbrev vgaWidth : Nat := 80

abbrev vgaHeight : Nat := 20

/-- `video_mem`, `current_terminal_x` and `current_terminal_y`, with the cells that were stored to. -/
structure Terminal where
  videoMem : Nat → UInt16
  currentTerminalX : Nat
  currentTerminalY : Nat
  stored : List Nat

/-- `terminal_make_char`: the character is a `char`, so its sign goes into the colour. -/
def terminalMakeChar (character colorCode : UInt8) : UInt16 :=
  UInt16.ofBitVec ((colorCode.toBitVec.setWidth 16 <<< 8) ||| character.toBitVec.signExtend 16)

/-- `video_mem[index] = value`. -/
def storeCell (index : Nat) (value : UInt16) (t : Terminal) : Terminal :=
  { t with videoMem := Function.update t.videoMem index value, stored := t.stored ++ [index] }

/-- `terminal_print_char`. -/
def terminalPrintChar (x y : Nat) (character colorCode : UInt8) (t : Terminal) : Terminal :=
  storeCell (y * vgaWidth + x) (terminalMakeChar character colorCode) t

/-- `terminal_write_char`. -/
def terminalWriteChar (character colorCode : UInt8) (t : Terminal) : Terminal :=
  if character = 10 then
    { t with currentTerminalX := 0, currentTerminalY := (t.currentTerminalY + 1) % 65536 }
  else
    let t :=
      if t.currentTerminalX ≥ vgaWidth then
        { t with currentTerminalX := 0, currentTerminalY := (t.currentTerminalY + 1) % 65536 }
      else t
    let t := if t.currentTerminalY ≥ vgaHeight then { t with currentTerminalY := 0 } else t
    let t := storeCell (t.currentTerminalY * vgaWidth + t.currentTerminalX)
      (terminalMakeChar character colorCode) t
    { t with currentTerminalX := (t.currentTerminalX + 1) % 65536 }

/-- `terminal_clear`. -/
def terminalClear (t : Terminal) : Terminal :=
  let t := (List.range vgaWidth).foldl (fun t x =>
    (List.range vgaHeight).foldl (fun t y => terminalPrintChar x y 0 0 t) t) t
  { t with currentTerminalX := 0, currentTerminalY := 0 }

/-- The loop of `print`, from index `i` on. -/
def printLoop (msg : CStr) : Nat → Nat → Terminal → Terminal
  | 0, _, t => t
  | fuel + 1, i, t => printLoop msg fuel (i + 1) (terminalWriteChar (msg i) 0xF t)

/-- `print`; `none` if `strlen` never ends. -/
def print (msg : CStr) (t : Terminal) : Option Terminal := do
  let msgLen ← strlen msg
  return printLoop msg msgLen 0 t

/-- Calls of `terminal_write_char`, with their characters and colours. -/
def terminalWriteChars (calls : List (UInt8 × UInt8)) (t : Terminal) : Terminal :=
  calls.foldl (fun t call => terminalWriteChar call.1 call.2 t) t

/-! ## 2. Where stores go -/

/-- The low byte of a cell is its character. -/
theorem toUInt8_makeChar (character colorCode : UInt8) :
    (terminalMakeChar character colorCode).toUInt8 = character := by
  refine UInt8.toBitVec_inj.mp (BitVec.eq_of_getLsbD_eq fun i hi => ?_)
  simp [terminalMakeChar, BitVec.getLsbD_signExtend, hi]
  omega

/-- The column of the next character that is printed. -/
def Terminal.nextX (t : Terminal) : Nat := if t.currentTerminalX ≥ vgaWidth then 0 else t.currentTerminalX

/-- The row of the next character that is printed. -/
def Terminal.nextY (t : Terminal) : Nat :=
  let y := if t.currentTerminalX ≥ vgaWidth then (t.currentTerminalY + 1) % 65536 else t.currentTerminalY
  if y ≥ vgaHeight then 0 else y

/-- The cell of the next character that is printed. -/
def Terminal.nextCell (t : Terminal) : Nat := t.nextY * vgaWidth + t.nextX

/-- **Whatever row and column the terminal is at, the next cell is on the screen.** -/
theorem nextCell_lt (t : Terminal) : t.nextCell < vgaWidth * vgaHeight := by
  have hwrap : ∀ n y : Nat, 0 < n → (if y ≥ n then 0 else y) < n := by
    intro n y hn
    split
    · exact hn
    · omega
  have hx : t.nextX < vgaWidth := hwrap _ _ (by decide)
  have hy : t.nextY < vgaHeight := hwrap _ _ (by decide)
  unfold Terminal.nextCell
  simp only [vgaWidth, vgaHeight] at *
  omega

section

variable {character colorCode : UInt8}

@[simp] theorem terminalWriteChar_newline (t : Terminal) : terminalWriteChar 10 colorCode t =
    { t with currentTerminalX := 0, currentTerminalY := (t.currentTerminalY + 1) % 65536 } := rfl

/-- A character other than a newline goes to the next cell. -/
theorem terminalWriteChar_char (h : character ≠ 10) (t : Terminal) :
    terminalWriteChar character colorCode t =
      { videoMem := Function.update t.videoMem t.nextCell (terminalMakeChar character colorCode)
        currentTerminalX := (t.nextX + 1) % 65536
        currentTerminalY := t.nextY
        stored := t.stored ++ [t.nextCell] } := by
  unfold terminalWriteChar Terminal.nextCell Terminal.nextX Terminal.nextY
  rw [if_neg h]
  split
  · dsimp only
    split
    · rfl
    · rfl
  · dsimp only
    split
    · rfl
    · rfl

end

/-- Whatever the state of the terminal is, `f` stores to cells of the screen only. -/
def OnScreen (f : Terminal → Terminal) : Prop :=
  ∀ t, ∃ new, (f t).stored = t.stored ++ new ∧ ∀ x ∈ new, x < vgaWidth * vgaHeight

theorem OnScreen.foldl {α : Type} {f : Terminal → α → Terminal} {l : List α}
    (h : ∀ a ∈ l, OnScreen fun t => f t a) : OnScreen fun t => l.foldl f t := by
  induction l with
  | nil => exact fun t => ⟨[], by simp⟩
  | cons a l ih =>
    intro t
    obtain ⟨new, hnew, hin⟩ := h a List.mem_cons_self t
    obtain ⟨more, hmore, hin'⟩ := ih (fun b hb => h b (List.mem_cons_of_mem a hb)) (f t a)
    refine ⟨new ++ more, ?_, fun x hx => ?_⟩
    · rw [← List.append_assoc, ← hnew]
      exact hmore
    · rcases List.mem_append.mp hx with hx | hx
      · exact hin x hx
      · exact hin' x hx

/-- **One call** stores to one cell of the screen, or to none. -/
theorem terminalWriteChar_onScreen (character colorCode : UInt8) :
    OnScreen (terminalWriteChar character colorCode) := by
  intro t
  by_cases hc : character = 10
  · subst hc
    exact ⟨[], by simp⟩
  · rw [terminalWriteChar_char hc]
    refine ⟨[t.nextCell], rfl, fun x hx => ?_⟩
    rw [List.mem_singleton.mp hx]
    exact nextCell_lt t

/-- **Every sequence of calls** stores to cells of the screen only. -/
theorem terminalWriteChars_onScreen (calls : List (UInt8 × UInt8)) :
    OnScreen (terminalWriteChars calls) :=
  OnScreen.foldl fun call _ => terminalWriteChar_onScreen call.1 call.2

/-! ## 3. Clearing -/

/-- The cells that are cleared, column by column. -/
def clearedCells : List Nat :=
  (List.range vgaWidth).flatMap fun x => (List.range vgaHeight).map fun y => y * vgaWidth + x

/-- The cells that are cleared are all cells of the screen, and no others. -/
theorem mem_clearedCells {i : Nat} : i ∈ clearedCells ↔ i < vgaWidth * vgaHeight := by
  simp only [clearedCells, List.mem_flatMap, List.mem_map, List.mem_range, vgaWidth, vgaHeight]
  constructor
  · rintro ⟨x, hx, y, hy, rfl⟩
    omega
  · intro hi
    exact ⟨i % 80, by omega, i / 80, by omega, by omega⟩

/-- Storing 0 to cells, one after the other. -/
theorem foldl_storeCell (cells : List Nat) (t : Terminal) :
    (cells.foldl (fun t i => storeCell i 0 t) t).stored = t.stored ++ cells ∧
    ∀ i, (cells.foldl (fun t i => storeCell i 0 t) t).videoMem i =
      if i ∈ cells then 0 else t.videoMem i := by
  induction cells generalizing t with
  | nil => simp
  | cons c cells ih =>
    obtain ⟨hstored, hmem⟩ := ih (storeCell c 0 t)
    refine ⟨by rw [List.foldl_cons, hstored, storeCell, List.append_assoc, List.singleton_append],
      fun i => ?_⟩
    rw [List.foldl_cons, hmem, storeCell]
    by_cases hic : i = c
    · simp [hic]
    · simp [hic]

/-- The two loops of `terminal_clear` are one over the cells. -/
theorem terminalClear_eq (t : Terminal) : terminalClear t =
    { clearedCells.foldl (fun t i => storeCell i 0 t) t with
      currentTerminalX := 0, currentTerminalY := 0 } := by
  have hchar : terminalMakeChar 0 0 = 0 := by decide
  unfold terminalClear clearedCells terminalPrintChar
  rw [List.foldl_flatMap, hchar]
  simp only [List.foldl_map]

/-- **After a clear the whole screen is blank**, and nothing else has been stored to. -/
theorem terminalClear_blank (t : Terminal) :
    (terminalClear t).stored = t.stored ++ clearedCells ∧
    ∀ i, (terminalClear t).videoMem i = if i < vgaWidth * vgaHeight then 0 else t.videoMem i := by
  obtain ⟨hstored, hmem⟩ := foldl_storeCell clearedCells t
  rw [terminalClear_eq]
  dsimp only
  refine ⟨hstored, fun i => ?_⟩
  simp only [hmem, mem_clearedCells]

theorem terminalClear_onScreen : OnScreen terminalClear := fun t =>
  ⟨clearedCells, (terminalClear_blank t).1, fun _ hx => mem_clearedCells.mp hx⟩

end KokoOs
