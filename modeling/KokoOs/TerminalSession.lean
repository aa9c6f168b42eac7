/-
# Printing, call after call (`lib/terminal.c`)

Everything the kernel prints is put together from the five calls here.  Between them the kernel may do
what it likes with its memory; the screen is a function of the texts of the calls alone, and it shows
them as one text, laid out from the first row on, with blanks in all other cells (`terminal_session`).

* **A call.**  What it prints is `PrintCall.text`.  The number that `print_number` is given becomes a
  numeral in a block of its own (`itoa_text`), and is printed as a string (`printNumber_printed`).  The
  least `int` has no numeral, and is not among the calls.
* **A run.**  The texts of the calls come one behind the other (`PrintStep.session`), which is what
  lets a theorem on one string speak about a whole session.
* **Memory.**  `print_number` prints the string that `itoa` has made and forgets it, so each number
  but 0 costs a block of the heap for good.
-/
import KokoOs.StrRoundTrip
import KokoOs.TerminalLayout

namespace KokoOs

open Bytes Prog Decimal Grid
open Runs (Run AllSteps)

/-! ## 1. The calls -/

/-- The memory of the kernel, and the terminal. -/
structure Console where
  arena : Arena
  terminal : Terminal

/-- Programs that print. -/
abbrev ConsoleM := EStateM Halt Console

def onTerminal (f : Terminal → Terminal) : ConsoleM Unit :=
  modify fun c => { c with terminal := f c.terminal }

/-- `terminal_newline`. -/
def terminalNewline : ConsoleM Unit := onTerminal (terminalWriteChar 10 0)

/-- `terminal_init`. -/
def terminalInit : ConsoleM Unit := onTerminal terminalClear

/-- `print_char`. -/
def printChar (character : UInt8) : ConsoleM Unit := onTerminal (terminalWriteChar character 0xF)

/-- `print`, of the string at `msg`. -/
def printString (msg : Nat) : ConsoleM Unit := do
  let c ← get
  match print (strAt c.arena.mem msg) c.terminal with
  | none => throw .hang
  | some t => set { c with terminal := t }

/-- `println`. -/
def println (msg : Nat) : ConsoleM Unit := do
  printString msg
  terminalNewline

/-- `print_number`. -/
def printNumber (number : Int) : ConsoleM Unit := do
  let string ← Prog.zoom Console.arena (fun c a => { c with arena := a }) (itoa number)
  println string

/-! ## 2. What one call does -/

/-- The numeral that is printed for a number. -/
def numeral (n : Int) : List UInt8 := if n = 0 then [48] else signedDecimal n

/-- A call, given by what it prints; or something else that the kernel does. -/
inductive PrintCall where
  | char (character : UInt8)
  | print (text : List UInt8)
  | println (text : List UInt8)
  | number (n : Int)
  | newline
  | other

/-- The characters that a call prints. -/
def PrintCall.text : PrintCall → List UInt8
  | .char character => [character]
  | .print text => text
  | .println text => text ++ [10]
  | .number n => numeral n ++ [10]
  | .newline => [10]
  | .other => []

/-- The blocks that a call takes. -/
def PrintCall.blocks : PrintCall → Nat
  | .number n => if n = 0 then 0 else 1
  | _ => 0

/-- A text is stored at `msg`, and not longer than `strlen` can count. -/
structure TextAt (c : Console) (msg : Nat) (text : List UInt8) : Prop where
  str : CString c.arena.mem msg text
  nul : 0 ∉ text
  short : text.length < 65536

/-- A step: a call that returns, or any change of memory that leaves a heap, and the constant `"0"`. -/
inductive PrintStep (c : Console) : PrintCall → Console → Prop
  | char {character : UInt8} {c' : Console} :
      printChar character c = .ok () c' → PrintStep c (.char character) c'
  | print {msg : Nat} {text : List UInt8} {c' : Console} : TextAt c msg text →
      printString msg c = .ok () c' → PrintStep c (.print text) c'
  | println {msg : Nat} {text : List UInt8} {c' : Console} : TextAt c msg text →
      println msg c = .ok () c' → PrintStep c (.println text) c'
  | number {n : Int} {c' : Console} : n.natAbs < 2 ^ 31 →
      printNumber n c = .ok () c' → PrintStep c (.number n) c'
  | newline {c' : Console} : terminalNewline c = .ok () c' → PrintStep c .newline c'
  | other {a : Arena} : KernelHeap a → CString a.mem zeroString [48] →
      PrintStep c .other { c with arena := a }

/-- What every call needs of memory. -/
structure CanPrint (c : Console) : Prop where
  kernel : KernelHeap c.arena
  zero : CString c.arena.mem zeroString [48]

/-- What a call has done. -/
structure CallPrinted (c : Console) (call : PrintCall) (c' : Console) : Prop where
  ready : CanPrint c'
  screen : c'.terminal = printChars call.text c.terminal
  free : call ≠ .other →
    (freeBlocks c'.arena.heap).card + call.blocks = (freeBlocks c.arena.heap).card

section

variable {a a' : Arena} {c c' : Console} {n : Int} {msg : Nat} {text : List UInt8} {call : PrintCall}

/-- Outside of the string, `itoa` stores nothing. -/
theorem itoaStore_of_not_mem (m : Mem) (string : Nat) {k neg : Nat} (hk : k < 2 ^ 31) (h0 : 0 < k)
    (hneg : neg ≤ 1) {x : Nat} (hx : ¬ (string ≤ x ∧ x < string + 4096)) :
    itoaStore m string k neg ((decimal k).length + 1 + neg) x = m x := by
  have hlen : (decimal k).length ≤ 10 := length_decimal_le_iff.mpr (by omega)
  have hpos : 0 < (decimal k).length := List.length_pos_iff.mpr fun hnil => h0.ne' (decimal_eq_nil.mp hnil)
  have hdigits : ∀ m, itoaDigits string k ((decimal k).length + 1 + neg - 2) m =
      blit m (string + neg) (decimal k) := fun m => itoaDigits_eq string m (by omega) fun _ => by omega
  unfold itoaStore
  rw [Function.update_of_ne (by omega), hdigits, blit_of_not_mem (by omega)]
  split
  · exact Function.update_of_ne (by omega) _ _
  · rfl

/-- **`itoa` of a number other than 0** makes a new object, with the numeral in it. -/
theorem itoa_new (hk : KernelHeap a) (h0 : n ≠ 0) (h : n.natAbs < 2 ^ 31) {p : Nat}
    (hrun : itoa n a = .ok p a') : ∃ b, p = blockAt b ∧ New a a' b ∧
      CString a'.mem p (signedDecimal n) ∧
      (freeBlocks a'.heap).card + 1 = (freeBlocks a.heap).card := by
  have hlen : (decimal n.natAbs).length ≤ 10 := length_decimal_le_iff.mpr (by omega)
  have hm : (if n < 0 then toInt (n * -1) else n) = n.natAbs := by
    split
    · rw [toInt_of_fits (by omega) (by omega)]
      omega
    · omega
  have hcount : itoaLength (((n.natAbs : Nat) : Int) % 2 ^ 32).toNat 0 = (decimal n.natAbs).length := by
    have hcopy : (((n.natAbs : Nat) : Int) % 2 ^ 32).toNat = n.natAbs := by omega
    rw [itoaLength_eq, Nat.zero_add, hcopy]
  have hneg : (if n < 0 then 1 else 0) ≤ 1 := by split <;> omega
  have hsmall : (decimal n.natAbs).length + 1 + (if n < 0 then 1 else 0) ≤ 4096 := by omega
  have hfree : (freeBlocks a.heap).card ≠ 0 := by
    intro hnone
    unfold itoa at hrun
    rw [if_neg h0] at hrun
    simp only [hm, hcount] at hrun
    obtain ⟨q, a1, hmalloc, -⟩ := (bind_ok_iff _ _ _ _ _).mp hrun
    obtain ⟨b, -, halloc⟩ := hk.alloc (Nat.add_pos_left (Nat.succ_pos _) _) hsmall hmalloc
    have hcard := halloc.card
    omega
  obtain ⟨b, a1, halloc, hrun'⟩ := itoa_run hk hfree h0 rfl hm (by rw [hcount]; exact hsmall)
  rw [hcount] at hrun'
  obtain ⟨rfl, rfl⟩ := EStateM.Result.ok.inj (hrun.symm.trans hrun')
  refine ⟨b, rfl, halloc.toNew.store fun x hx => ?_, itoaStore_cstring a.mem (blockAt b) h0 h, halloc.card⟩
  rw [halloc.mem]
  exact itoaStore_of_not_mem a.mem (blockAt b) h (by omega) hneg hx

theorem printChars_append (text text' : List UInt8) (t : Terminal) :
    printChars (text ++ text') t = printChars text' (printChars text t) := List.foldl_append

/-- The colour of a newline is not seen. -/
theorem printChars_newline (t : Terminal) : printChars [10] t = terminalWriteChar 10 0 t := by
  unfold printChars
  simp

/-- `print` writes the characters of the string. -/
theorem printString_run (h : TextAt c msg text) :
    printString msg c = .ok () { c with terminal := printChars text c.terminal } := by
  have hspells : Spells (strAt c.arena.mem msg) text := h.str.spells h.nul
  have hprint : print (strAt c.arena.mem msg) c.terminal = some (printChars text c.terminal) := by
    unfold print
    rw [hspells.strlen h.short]
    exact congrArg some (printLoop_eq c.terminal hspells.readsAt)
  unfold printString
  rw [get_bind, hprint]
  rfl

/-- `println` writes a newline behind them. -/
theorem println_run (h : TextAt c msg text) :
    println msg c = .ok () { c with terminal := printChars (text ++ [10]) c.terminal } := by
  rw [printChars_append, printChars_newline]
  exact (bind_of_ok (printString_run h) _).trans rfl

/-- The numeral of a number is a text. -/
theorem numeral_text (h : n.natAbs < 2 ^ 31) : 0 ∉ numeral n ∧ (numeral n).length < 65536 := by
  unfold numeral
  split
  · exact ⟨by simp, by simp⟩
  · next h0 =>
    have hlen : (decimal n.natAbs).length ≤ 10 := length_decimal_le_iff.mpr (by omega)
    refine ⟨(signedDecimal_canonical h0).numeral.zero_not_mem, ?_⟩
    rw [length_signedDecimal]
    split <;> omega

/-- **`itoa` leaves the numeral in memory**, and takes a block for it unless it is the constant `"0"`. -/
theorem itoa_text (hc : CanPrint c) (h : n.natAbs < 2 ^ 31) {p : Nat}
    (hitoa : itoa n c.arena = .ok p a') : CanPrint { c with arena := a' } ∧
      TextAt { c with arena := a' } p (numeral n) ∧
      (freeBlocks a'.heap).card + (PrintCall.number n).blocks = (freeBlocks c.arena.heap).card := by
  obtain ⟨hnul, hshort⟩ := numeral_text h
  by_cases h0 : n = 0
  · subst h0
    obtain ⟨rfl, rfl⟩ := (pure_ok_iff _ _ _ _).mp hitoa
    exact ⟨hc, ⟨hc.zero, hnul, hshort⟩, rfl⟩
  · obtain ⟨b, rfl, hnew, hstr, hcard⟩ := itoa_new hc.kernel h0 h hitoa
    have hnumeral : signedDecimal n = numeral n := (if_neg h0).symm
    have hblocks : (PrintCall.number n).blocks = 1 := if_neg h0
    refine ⟨⟨hnew.touches.kernel, hc.zero.congr fun i hi => ?_⟩, ⟨hnumeral ▸ hstr, hnul, hshort⟩,
      hblocks ▸ hcard⟩
    -- the constant is in front of the heap
    refine hnew.touches.outside _ (.inl ?_) (Set.notMem_empty _)
    simp only [List.length_singleton] at hi
    simp only [zeroString, memoryHeapStartAddress]
    omega

/-- **`print_number` prints the numeral.** -/
theorem printNumber_printed (hc : CanPrint c) (h : n.natAbs < 2 ^ 31)
    (hrun : printNumber n c = .ok () c') : CallPrinted c (.number n) c' := by
  obtain ⟨string, c1, hzoom, hprint⟩ := (bind_ok_iff _ _ _ _ _).mp hrun
  obtain ⟨a', hitoa, rfl⟩ := zoom_ok_iff.mp hzoom
  obtain ⟨hready, htext, hcard⟩ := itoa_text hc h hitoa
  obtain ⟨-, rfl⟩ := EStateM.Result.ok.inj ((println_run htext).symm.trans hprint)
  exact ⟨⟨hready.kernel, hready.zero⟩, rfl, fun _ => hcard⟩

/-- `print_number` returns as long as there is a free block for the numeral. -/
theorem printNumber_returns (hc : CanPrint c) (h : n.natAbs < 2 ^ 31)
    (hfree : (freeBlocks c.arena.heap).card ≠ 0) : ∃ c', printNumber n c = .ok () c' := by
  obtain ⟨p, a', -, hitoa, -⟩ := itoaRight_of_natAbs h c.arena hc.kernel hc.zero hfree
  have hzoom : Prog.zoom Console.arena (fun c a => { c with arena := a }) (itoa n) c =
      .ok p { c with arena := a' } := zoom_ok_iff.mpr ⟨a', hitoa, rfl⟩
  exact ⟨_, (bind_of_ok hzoom _).trans (println_run (itoa_text hc h hitoa).2.1)⟩

/-- **What a step can do to the screen.** -/
theorem PrintStep.printed (hc : CanPrint c) (hstep : PrintStep c call c') : CallPrinted c call c' := by
  cases hstep with
  | char h =>
    obtain ⟨-, rfl⟩ := EStateM.Result.ok.inj h
    exact ⟨⟨hc.kernel, hc.zero⟩, rfl, fun _ => rfl⟩
  | print htext h =>
    obtain ⟨-, rfl⟩ := EStateM.Result.ok.inj ((printString_run htext).symm.trans h)
    exact ⟨⟨hc.kernel, hc.zero⟩, rfl, fun _ => rfl⟩
  | println htext h =>
    obtain ⟨-, rfl⟩ := EStateM.Result.ok.inj ((println_run htext).symm.trans h)
    exact ⟨⟨hc.kernel, hc.zero⟩, rfl, fun _ => rfl⟩
  | number hn h => exact printNumber_printed hc hn h
  | newline h =>
    obtain ⟨-, rfl⟩ := EStateM.Result.ok.inj h
    exact ⟨⟨hc.kernel, hc.zero⟩, (printChars_newline _).symm, fun _ => rfl⟩
  | other hk hzero => exact ⟨⟨hk, hzero⟩, rfl, fun h => absurd rfl h⟩

/-! ## 3. Runs -/

/-- What a run has printed. -/
structure Session (c : Console) (tr : List (Console × PrintCall)) (c' : Console) : Prop where
  ready : CanPrint c'
  screen : c'.terminal = printChars (tr.flatMap fun q => q.2.text) c.terminal
  free : AllSteps (fun _ call => call ≠ .other) tr → (freeBlocks c'.arena.heap).card +
    (tr.map fun q => q.2.blocks).sum = (freeBlocks c.arena.heap).card

/-- **The texts of the calls come one behind the other.** -/
theorem PrintStep.session {tr : List (Console × PrintCall)} (hc : CanPrint c)
    (hrun : Run PrintStep c tr c') : Session c tr c' := by
  induction hrun with
  | refl => exact ⟨hc, rfl, fun _ => rfl⟩
  | @tail m c'' tr call _ hstep ih =>
    obtain ⟨hready, hscreen, hfree⟩ := ih
    have hone := hstep.printed hready
    refine ⟨hone.ready, ?_, fun hall => ?_⟩
    · rw [List.flatMap_append, printChars_append, ← hscreen, hone.screen]
      simp
    · obtain ⟨hbefore, hlast⟩ := AllSteps.append.mp hall
      have hsum := hfree hbefore
      have hcall := hone.free hlast
      rw [List.map_append, List.sum_append]
      simp only [List.map_cons, List.map_nil, List.sum_cons, List.sum_nil]
      omega

/-- **The screen shows what has been printed since `terminal_init`**, in one text, whatever else the
kernel does with its memory: as it is laid out if it has room, with all other cells blank, and in any case
in cells of the screen.  If it does nothing else, the heap has lost a block for each number printed
but 0. -/
theorem terminal_session {c0 : Console} {tr : List (Console × PrintCall)} (hc : CanPrint c0)
    (hinit : terminalInit c0 = .ok () c) (hrun : Run PrintStep c tr c') :
    (∃ cleared new, c.terminal.stored = c0.terminal.stored ++ cleared ∧
      c'.terminal.stored = c.terminal.stored ++ new ∧
      ∀ x ∈ cleared ++ new, x < vgaWidth * vgaHeight) ∧
    (textRows vgaWidth 10 (tr.flatMap fun q => q.2.text) ≤ vgaHeight →
      PrintsLayout (tr.flatMap fun q => q.2.text) c.terminal c'.terminal ∧
      ∀ x < vgaWidth * vgaHeight, x ∉ (textCells 0 (tr.flatMap fun q => q.2.text)).map Prod.fst →
        c'.terminal.videoMem x = 0) ∧
    (AllSteps (fun _ call => call ≠ .other) tr → (freeBlocks c'.arena.heap).card +
      (tr.map fun q => q.2.blocks).sum = (freeBlocks c.arena.heap).card) := by
  obtain ⟨-, rfl⟩ := EStateM.Result.ok.inj hinit
  have hc' : CanPrint { c0 with terminal := terminalClear c0.terminal } := ⟨hc.kernel, hc.zero⟩
  obtain ⟨-, hscreen, hfree⟩ := PrintStep.session hc' hrun
  refine ⟨?_, fun hrows => ?_, hfree⟩
  · obtain ⟨cleared, hcleared, hin⟩ := terminalClear_onScreen c0.terminal
    obtain ⟨new, hnew, hin'⟩ := OnScreen.foldl (l := tr.flatMap fun q => q.2.text)
      (fun ch _ => terminalWriteChar_onScreen ch 0xF) (terminalClear c0.terminal)
    refine ⟨cleared, new, hcleared, (congrArg Terminal.stored hscreen).trans hnew, fun x hx => ?_⟩
    rcases List.mem_append.mp hx with hx | hx
    · exact hin x hx
    · exact hin' x hx
  · have hshown := printChars_layout c0.terminal hrows
    rw [hscreen]
    refine ⟨hshown, fun x hx hout => (hshown.kept x hout).trans ?_⟩
    rw [(terminalClear_blank c0.terminal).2 x, if_pos hx]

end

/-- `-7` and `0` are printed on a terminal that was somewhere else. -/
theorem terminal_session_two_numbers : ∃ (c c' : Console) (tr : List (Console × PrintCall)),
    Run PrintStep c tr c' ∧ (tr.flatMap fun q => q.2.text) = [45, 55, 10, 48, 10] ∧
      PrintsLayout [45, 55, 10, 48, 10] c.terminal c'.terminal ∧ c'.terminal.videoMem 2 = 0 ∧
      (freeBlocks c'.arena.heap).card + 1 = (freeBlocks c.arena.heap).card := by
  let m : Mem := fun x => if x = zeroString then 48 else 0
  have hzero : CString m zeroString [48] := by
    intro i hi
    obtain rfl | rfl : i = 0 ∨ i = 1 := by simp at hi; omega
    · rfl
    · rfl
  let c0 : Console := ⟨freshKernel m, ⟨fun _ => 7, 80, 65535, []⟩⟩
  have hc : CanPrint c0 := ⟨freshKernel_kernelHeap m, hzero⟩
  let c : Console := { c0 with terminal := terminalClear c0.terminal }
  have hc1 : CanPrint c := ⟨hc.kernel, hc.zero⟩
  have hcard : (freeBlocks c.arena.heap).card = 25600 := freshKernel_free m
  obtain ⟨c1, h1⟩ := printNumber_returns (n := -7) hc1 (by decide) (by omega)
  have hprinted := printNumber_printed hc1 (by decide) h1
  have hcard1 : (freeBlocks c1.arena.heap).card + 1 = 25600 :=
    (hprinted.free (by simp)).trans hcard
  obtain ⟨c2, h2⟩ := printNumber_returns (n := 0) hprinted.ready (by decide) (by omega)
  have hrun : Run PrintStep c _ c2 :=
    (Run.single (.number (by decide) h1)).tail (.number (by decide) h2)
  have htext : ([(c, PrintCall.number (-7))] ++ [(c1, PrintCall.number 0)]).flatMap
      (fun q => q.2.text) = [45, 55, 10, 48, 10] := by
    have hseven : decimal 7 = [55] := by
      rw [decimal_pos (by decide), show 7 / 10 = 0 by decide, decimal_zero]
      rfl
    simp [PrintCall.text, numeral, signedDecimal, hseven]
  obtain ⟨-, hshown, hfree⟩ := terminal_session hc rfl hrun
  rw [htext] at hshown
  obtain ⟨hlayout, hblank⟩ := hshown (by decide)
  -- `-7` is in the first two cells of its row
  exact ⟨c, c2, _, hrun, htext, hlayout, hblank 2 (by decide) (by decide),
    hfree (by simp [AllSteps])⟩

end KokoOs
