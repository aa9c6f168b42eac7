/-
# The interrupt descriptor table (`idt/idt.c`, `idt_load` of `idt/idt.asm`)

`idt_init` clears the table, points every gate at the stub of `idt_null`, and then gives interrupt 0 and
the keyboard other gates: interrupt 0 the stub of `idt_zero`, but the keyboard the C function
`idt_keyboard` itself.  The stub of the keyboard is never used.

The table is the bytes of memory that it consists of, and a gate is what the processor makes of
eight of them (`gate`).  So a gate that has been set leads to its address because its fields were
stored where the processor looks for them (`gate_idtSet`), and one that is set leaves the others
alone (`gate_idtSet_of_ne`).

* **The table.**  `idtInit_spec`: each gate leads to its handler, the descriptor says where the
  table is and how long, and nothing else has been written.
* **Loading it.**  `idt_load` is machine code on the i386 of `Lib.I386`.  After it, interrupts below
  512 are delivered to what their gate says, and no others are (`idtLoad_delivers`).  It does not
  save `ebx`, which its caller expects back.
-/
import KokoOs.Lib.I386
import KokoOs.Heap

namespace KokoOs.Interrupts

open Bytes I386 I386.Cpu Ports

variable {δ : Type}

/-! ## 1. The functions -/

abbrev kernelTotalInterrupts : Nat := 512
abbrev kernelCodeSelector : Nat := 0x08
abbrev keyboardInterrupt : Nat := 0x21

/-- Where the linker has put what `idt.c` and `idt.asm` name. -/
structure Symbols where
  idtDescriptors : Nat
  idtrDescriptor : Nat
  idtLoad : Nat
  callInterrupt : Nat
  idtZeroInterrupt : Nat
  idtKeyboardInterrupt : Nat
  idtNullInterrupt : Nat
  idtZero : Nat
  idtKeyboard : Nat
  idtNull : Nat

/-- `idt_set`. -/
def idtSet (y : Symbols) (interruptNo address : Nat) (m : Mem) : Mem :=
  let desc := y.idtDescriptors + 8 * interruptNo
  let m := putU16 m desc (address &&& 0x0000ffff)
  let m := putU16 m (desc + 2) kernelCodeSelector
  let m := Function.update m (desc + 4) 0
  let m := Function.update m (desc + 5) 0xee
  putU16 m (desc + 6) (address >>> 16)

/-- The loop of `idt_init`, with `fuel` gates to go. -/
def idtSetLoop (y : Symbols) : Nat → Nat → Mem → Mem
  | 0, _, m => m
  | fuel + 1, i, m => idtSetLoop y fuel (i + 1) (idtSet y i y.idtNullInterrupt m)

/-- `idt_init`, up to its call of `idt_load`. -/
def idtInit (y : Symbols) (m : Mem) : Mem :=
  let m := memset m y.idtDescriptors 0 (8 * kernelTotalInterrupts)
  let m := putU16 m y.idtrDescriptor (8 * kernelTotalInterrupts - 1)
  let m := putU32 m (y.idtrDescriptor + 2) y.idtDescriptors
  let m := idtSetLoop y kernelTotalInterrupts 0 m
  let m := idtSet y 0 y.idtZeroInterrupt m
  idtSet y keyboardInterrupt y.idtKeyboard m

/-- `idt_load`. -/
def idtLoadCode : List Instr :=
  [.push .ebp, .mov .ebp .esp, .load .ebx .ebp 8, .lidt .ebx, .pop .ebp, .ret]

/-- Where the gate of an interrupt leads. -/
def handler (y : Symbols) (n : Nat) : Nat :=
  if n = keyboardInterrupt then y.idtKeyboard
  else if n = 0 then y.idtZeroInterrupt
  else y.idtNullInterrupt

/-! ## 2. The table -/

section

variable {y : Symbols} {m : Mem} {n address x : Nat}

theorem idtSet_of_not_mem
    (h : ¬ (y.idtDescriptors + 8 * n ≤ x ∧ x < y.idtDescriptors + 8 * n + 8)) :
    idtSet y n address m x = m x := by
  simp only [idtSet]
  rw [putU16_of_not_mem (by omega), Function.update_of_ne (by omega), Function.update_of_ne (by omega),
    putU16_of_not_mem (by omega), putU16_of_not_mem (by omega)]

/-- A gate that has been set leads to its address. -/
theorem gate_idtSet (haddress : address < 2 ^ 32) : gate (idtSet y n address m) y.idtDescriptors n =
    ⟨address, kernelCodeSelector, 0xee⟩ := by
  obtain ⟨desc, hdesc⟩ : ∃ desc, desc = y.idtDescriptors + 8 * n := ⟨_, rfl⟩
  simp only [idtSet, gate, ← hdesc, Gate.mk.injEq]
  refine ⟨?_, ?_, ?_⟩
  · rw [u16_putU16 _ _ (by rw [Nat.shiftRight_eq_div_pow]; omega), u16_congr fun x h h' => by
        rw [putU16_of_not_mem (by omega), Function.update_of_ne (by omega),
          Function.update_of_ne (by omega), putU16_of_not_mem (by omega)],
      show (0xffff : Nat) = 2 ^ 16 - 1 from rfl, Nat.and_two_pow_sub_one_eq_mod,
      u16_putU16 _ _ (by omega), Nat.shiftRight_eq_div_pow]
    omega
  · rw [u16_congr fun x h h' => by
        rw [putU16_of_not_mem (by omega), Function.update_of_ne (by omega),
          Function.update_of_ne (by omega)], u16_putU16 _ _ (by decide)]
  · rw [putU16_of_not_mem (by omega), Function.update_self]

theorem gate_congr {m' : Mem} {base : Nat}
    (h : ∀ x, base + 8 * n ≤ x → x < base + 8 * n + 8 → m x = m' x) : gate m base n = gate m' base n := by
  simp only [gate, Gate.mk.injEq]
  refine ⟨?_, u16_congr fun x h1 h2 => h x (by omega) (by omega), h _ (by omega) (by omega)⟩
  rw [u16_congr fun x h1 h2 => h x (by omega) (by omega),
    u16_congr (a := base + 8 * n + 6) fun x h1 h2 => h x (by omega) (by omega)]

theorem gate_idtSet_of_ne {k : Nat} (h : k ≠ n) :
    gate (idtSet y n address m) y.idtDescriptors k = gate m y.idtDescriptors k :=
  gate_congr fun x h1 h2 => idtSet_of_not_mem (by omega)

/-- **The loop** sets the gates from `i` on, and touches nothing else. -/
theorem idtSetLoop_spec (hnull : y.idtNullInterrupt < 2 ^ 32) (fuel : Nat) : ∀ (i : Nat) (m : Mem),
    (∀ k, gate (idtSetLoop y fuel i m) y.idtDescriptors k =
      if i ≤ k ∧ k < i + fuel then ⟨y.idtNullInterrupt, kernelCodeSelector, 0xee⟩
      else gate m y.idtDescriptors k) ∧
    ∀ x, ¬ (y.idtDescriptors + 8 * i ≤ x ∧ x < y.idtDescriptors + 8 * (i + fuel)) →
      idtSetLoop y fuel i m x = m x := by
  induction fuel with
  | zero => exact fun i m => ⟨fun k => (if_neg (by omega)).symm, fun _ _ => rfl⟩
  | succ fuel ih =>
    intro i m
    obtain ⟨hgates, hrest⟩ := ih (i + 1) (idtSet y i y.idtNullInterrupt m)
    refine ⟨fun k => ?_, fun x hx => (hrest x (by omega)).trans (idtSet_of_not_mem (by omega))⟩
    rw [idtSetLoop, hgates]
    by_cases hk : k = i
    · rw [if_neg (by omega), if_pos (by omega), hk, gate_idtSet hnull]
    · rw [gate_idtSet_of_ne hk]
      exact if_congr (by omega) rfl rfl

/-- The addresses are those of a linked image: the two tables do not overlap, and all have 32 bits. -/
structure Linked (y : Symbols) : Prop where
  apart : y.idtrDescriptor + 6 ≤ y.idtDescriptors ∨
    y.idtDescriptors + 8 * kernelTotalInterrupts ≤ y.idtrDescriptor
  table : y.idtDescriptors + 8 * kernelTotalInterrupts ≤ 2 ^ 32
  pointer : y.idtrDescriptor + 6 ≤ 2 ^ 32
  zero : y.idtZeroInterrupt < 2 ^ 32
  keyboard : y.idtKeyboard < 2 ^ 32
  null : y.idtNullInterrupt < 2 ^ 32

/-- Where `idt_init` writes. -/
def tables (y : Symbols) : Set Nat :=
  {x | (y.idtDescriptors ≤ x ∧ x < y.idtDescriptors + 8 * kernelTotalInterrupts) ∨
    (y.idtrDescriptor ≤ x ∧ x < y.idtrDescriptor + 6)}

/-- **What `idt_init` leaves behind**: each gate leads to its handler, the descriptor says where the table
is and how long, and nothing else has been written to. -/
theorem idtInit_spec (hy : Linked y) (m : Mem) :
    (∀ n, n < kernelTotalInterrupts → gate (idtInit y m) y.idtDescriptors n =
      ⟨handler y n, kernelCodeSelector, 0xee⟩) ∧
    u16 (idtInit y m) y.idtrDescriptor = 8 * kernelTotalInterrupts - 1 ∧
    u32 (idtInit y m) (y.idtrDescriptor + 2) = y.idtDescriptors ∧
    ∀ x, x ∉ tables y → idtInit y m x = m x := by
  have hapart := hy.apart
  have htable := hy.table
  have htotal : kernelTotalInterrupts = 512 := rfl
  have hkey : keyboardInterrupt = 0x21 := rfl
  obtain ⟨m0, hm0⟩ : ∃ m0, m0 = memset m y.idtDescriptors 0 (8 * kernelTotalInterrupts) := ⟨_, rfl⟩
  obtain ⟨m1, hm1⟩ : ∃ m1, m1 = putU32 (putU16 m0 y.idtrDescriptor (8 * kernelTotalInterrupts - 1))
    (y.idtrDescriptor + 2) y.idtDescriptors := ⟨_, rfl⟩
  obtain ⟨hgates, hrest⟩ := idtSetLoop_spec hy.null kernelTotalInterrupts 0 m1
  have heq : idtInit y m = idtSet y keyboardInterrupt y.idtKeyboard (idtSet y 0 y.idtZeroInterrupt
      (idtSetLoop y kernelTotalInterrupts 0 m1)) := by
    simp only [idtInit, hm1, hm0]
  -- behind the table nothing is touched once the descriptor has been filled in
  have hbehind : ∀ x, ¬ (y.idtDescriptors ≤ x ∧ x < y.idtDescriptors + 8 * kernelTotalInterrupts) →
      idtInit y m x = m1 x := by
    intro x hx
    rw [heq, idtSet_of_not_mem (by omega), idtSet_of_not_mem (by omega), hrest x (by omega)]
  refine ⟨fun n hn => ?_, ?_, ?_, fun x hx => ?_⟩
  · rw [heq, handler]
    by_cases hk : n = keyboardInterrupt
    · rw [if_pos hk, hk, gate_idtSet hy.keyboard]
    · rw [if_neg hk, gate_idtSet_of_ne hk]
      by_cases h0 : n = 0
      · rw [if_pos h0, h0, gate_idtSet hy.zero]
      · rw [if_neg h0, gate_idtSet_of_ne h0, hgates, if_pos (by omega)]
  · rw [u16_congr fun x h1 h2 => hbehind x (by omega), hm1,
      u16_congr fun x h1 h2 => putU32_of_not_mem (by omega), u16_putU16 _ _ (by decide)]
  · rw [u32_congr fun x h1 h2 => hbehind x (by omega), hm1, u32_putU32 _ _ (by omega)]
  · obtain ⟨hx, hx'⟩ := not_or.mp hx
    rw [hbehind x hx, hm1, putU32_of_not_mem (by omega), putU16_of_not_mem (by omega), hm0, memset,
      if_neg (by omega)]

end

/-! ## 3. Loading it -/

section

variable {y : Symbols} {M : Machine δ} {c : Cpu δ}

/-- The table in memory is that of `idt_init`, and the processor has been told where it is. -/
structure TableLoaded (y : Symbols) (c : Cpu δ) : Prop where
  limit : c.control.idtLimit = 8 * kernelTotalInterrupts - 1
  base : c.control.idtBase = y.idtDescriptors
  gates : ∀ n, n < kernelTotalInterrupts → gate c.mem y.idtDescriptors n =
    ⟨handler y n, kernelCodeSelector, 0xee⟩

/-- **Interrupts are delivered to their handlers**, and those beyond the table not at all. -/
theorem TableLoaded.deliver_eq (h : TableLoaded y c) (n : Nat) : deliver n c =
    if n < kernelTotalInterrupts then some (enter ⟨handler y n, kernelCodeSelector, 0xee⟩ c) else none := by
  have htotal : kernelTotalInterrupts = 512 := rfl
  unfold deliver
  rw [h.limit, h.base]
  by_cases hn : n < kernelTotalInterrupts
  · rw [if_pos hn, h.gates n hn, if_pos ⟨by omega, show (0xee : UInt8) &&& 0x9F = 0x8E by decide⟩]
  · rw [if_neg hn, if_neg fun hlimit => hn (by omega)]

/-- The tables are neither in the window from `lo` to `top` nor in `own`. -/
def Untouched (y : Symbols) (lo top : Nat) (own : Set Nat) : Prop :=
  ∀ x ∈ tables y, (x < lo ∨ top ≤ x) ∧ x ∉ own

theorem TableLoaded.keeps {lo top : Nat} {own : Set Nat} {c' : Cpu δ} (h : TableLoaded y c)
    (hy : Untouched y lo top own) (hcontrol : c'.control = c.control) (hkeeps : Keeps lo top own c c') :
    TableLoaded y c' where
  limit := by rw [hcontrol, h.limit]
  base := by rw [hcontrol, h.base]
  gates n hn := by
    rw [← h.gates n hn]
    refine gate_congr fun x hx hx' => ?_
    obtain ⟨hwindow, hown⟩ := hy x (.inl ⟨by omega, by omega⟩)
    exact hkeeps x hwindow hown

/-- What holds after `idt_load`, called at `c`. -/
structure Loaded (y : Symbols) (c c' : Cpu δ) : Prop where
  table : TableLoaded y c'
  eip : c'.eip = c.topWord
  esp : c'.regs .esp = c.regs .esp + 4
  ebx : c'.regs .ebx = y.idtrDescriptor
  regs : ∀ r, r ≠ .esp → r ≠ .ebx → c'.regs r = c.regs r
  keeps : Keeps (c.regs .esp - 4) (c.regs .esp) ∅ c c'

/-- The table of `idt_init` is loaded once the registers of the table are what is stored for them. -/
theorem tableLoaded_of_init (hy : Linked y) {m : Mem} (hmem : ∀ x ∈ tables y, c.mem x = idtInit y m x)
    (hlimit : c.control.idtLimit = u16 c.mem y.idtrDescriptor)
    (hbase : c.control.idtBase = u32 c.mem (y.idtrDescriptor + 2)) : TableLoaded y c := by
  obtain ⟨hgates, hinitLimit, hinitBase, -⟩ := idtInit_spec hy m
  have hptr : ∀ x, y.idtrDescriptor ≤ x → x < y.idtrDescriptor + 6 → c.mem x = idtInit y m x :=
    fun x hx hx' => hmem x (.inr ⟨hx, hx'⟩)
  refine ⟨?_, ?_, fun n hn => ?_⟩
  · rw [hlimit, ← hinitLimit]
    exact u16_congr fun x hx hx' => hptr x hx (by omega)
  · rw [hbase, ← hinitBase]
    exact u32_congr fun x hx hx' => hptr x (by omega) (by omega)
  · rw [← hgates n hn]
    exact gate_congr fun x hx hx' => hmem x (.inl ⟨by omega, by omega⟩)

/-- **`idt_load`** tells the processor where the table of `idt_init` is.  It returns without having saved
`ebx`, which its caller expects back. -/
theorem idtLoad_loads (hy : Linked y) {q : Nat} (hcode : Placed M y.idtLoad idtLoadCode q) {m : Mem}
    (heip : c.eip = y.idtLoad) (harg : arg c 0 = y.idtrDescriptor) (hroom : 4 ≤ c.regs .esp)
    (hesp : c.regs .esp + 8 ≤ 2 ^ 32) (hebp : c.regs .ebp < 2 ^ 32)
    (hmem : ∀ x ∈ tables y, c.mem x = idtInit y m x)
    (hstack : Untouched y (c.regs .esp - 4) (c.regs .esp) ∅) : GetsTo M (Loaded y c) c := by
  refine Leads.prologue hcode heip hroom (by omega) hebp fun c1 h1 hbody => ?_
  have hmem1 : ∀ x ∈ tables y, c1.mem x = idtInit y m x := fun x hx => by
    rw [h1.keeps x (hstack x hx).1 (Set.notMem_empty x), hmem x hx]
  have hptr : u32 c1.mem ((c1.regs .ebp + 8) % 2 ^ 32) = y.idtrDescriptor :=
    (h1.arg_eq (by omega)).trans harg
  obtain ⟨c2, hc2⟩ : ∃ c2, c2 = (c1.advance (c1.eip + M.size (.load .ebx .ebp 8))).setReg .ebx
    y.idtrDescriptor := ⟨_, rfl⟩
  have hload : exec M.ports (.load .ebx .ebp 8) (c1.advance (c1.eip + M.size (.load .ebx .ebp 8))) = c2 := by
    rw [hc2, ← hptr]
    rfl
  have hmem2 : c2.mem = c1.mem := by rw [hc2]; rfl
  have hebx : c2.regs .ebx = y.idtrDescriptor := by rw [hc2, setReg_self]
  have hregs2 : ∀ r, r ≠ .ebx → c2.regs r = c1.regs r := fun r hr => by rw [hc2, setReg_of_ne hr]; rfl
  have hstack2 : OnStack (c.regs .esp + 4) c2 [c.regs .ebp, c.topWord] := by
    rw [hc2]
    exact (h1.stack.advance _).setReg (by decide)
  refine Leads.instr hbody rfl trivial fun hbody => ?_
  rw [hload]
  refine Leads.instr hbody (by rw [hc2]; rfl) trivial fun hbody => ?_
  obtain ⟨c3, hc3⟩ : ∃ c3, c3 = exec M.ports (.lidt .ebx) (c2.advance (c1.eip + M.size (.load .ebx .ebp 8) +
    M.size (.lidt .ebx))) := ⟨_, rfl⟩
  have hregs3 : c3.regs = c2.regs := by rw [hc3]; rfl
  have hmem3 : c3.mem = c2.mem := by rw [hc3]; rfl
  rw [← hc3]
  refine Leads.epilogue (c := c) (by rw [hc3]; exact hbody)
    (hstack2.congr (by rw [hregs3]) fun _ _ _ => by rw [hmem3]) (by omega) fun c4 h4 => ?_
  have hmem4 : c4.mem = c1.mem := by rw [h4.mem, hmem3, hmem2]
  have hcontrol : c4.control.idtLimit = u16 c4.mem y.idtrDescriptor ∧
      c4.control.idtBase = u32 c4.mem (y.idtrDescriptor + 2) := by
    rw [h4.control, hc3, hmem4, ← hmem2, ← hebx]
    exact ⟨rfl, rfl⟩
  have htable : TableLoaded y c4 :=
    tableLoaded_of_init hy (fun x hx => by rw [hmem4, hmem1 x hx]) hcontrol.1 hcontrol.2
  refine ⟨htable, h4.eip, h4.esp, ?_, fun r hr hr' => ?_, fun x hx hown => ?_⟩
  · rw [h4.regs _ (by decide) (by decide), hregs3, hebx]
  · by_cases hebp' : r = .ebp
    · rw [hebp', h4.ebp]
    · rw [h4.regs r hr hebp', hregs3, hregs2 r hr', h1.regs r hr hebp']
  · rw [hmem4]
    exact h1.keeps x hx hown

/-- **After `idt_init`** every interrupt of the table is delivered to its handler, and no other is. -/
theorem idtLoad_delivers (hy : Linked y) {q : Nat} (hcode : Placed M y.idtLoad idtLoadCode q) {m : Mem}
    (heip : c.eip = y.idtLoad) (harg : arg c 0 = y.idtrDescriptor) (hroom : 4 ≤ c.regs .esp)
    (hesp : c.regs .esp + 8 ≤ 2 ^ 32) (hebp : c.regs .ebp < 2 ^ 32)
    (hmem : ∀ x ∈ tables y, c.mem x = idtInit y m x)
    (hstack : Untouched y (c.regs .esp - 4) (c.regs .esp) ∅) :
    GetsTo M (fun c' => Loaded y c c' ∧ ∀ n, deliver n c' = if n < kernelTotalInterrupts then
      some (enter ⟨handler y n, kernelCodeSelector, 0xee⟩ c') else none) c :=
  (idtLoad_loads hy hcode heip harg hroom hesp hebp hmem hstack).mono fun _ h =>
    ⟨h, h.table.deliver_eq⟩

end

/-! A kernel of its own: the ports keep a list of what has been written to them. -/

section

def lonePorts : PortMap (List (Nat × UInt8)) where
  inb _ log := (0, log)
  inw _ log := (0, log)
  outb port v log := (port, v) :: log
  outw _ _ log := log

def loneSymbols : Symbols where
  idtDescriptors := 0x2000
  idtrDescriptor := 0x3000
  idtLoad := 0x100
  callInterrupt := 0x200
  idtZeroInterrupt := 0x300
  idtKeyboardInterrupt := 0x310
  idtNullInterrupt := 0x320
  idtZero := 0x400
  idtKeyboard := 0x410
  idtNull := 0x420

theorem loneSymbols_linked : Linked loneSymbols := by
  constructor <;> decide

theorem tables_lone {x : Nat} (hx : x ∈ tables loneSymbols) : x < 0x4000 := by
  rcases hx with ⟨-, h⟩ | ⟨-, h⟩
  · exact lt_trans h (by decide)
  · exact lt_trans h (by decide)

def loneMem : Mem := idtInit loneSymbols fun _ => 0

/-- Nothing but `idt_load`. -/
def loadMachine : Machine (List (Nat × UInt8)) where
  ports := lonePorts
  code := listing 0x100 idtLoadCode
  size _ := 1
  given _ := none

/-- `idt_load` has been called, with the address of the descriptor. -/
def loadCpu : Cpu (List (Nat × UInt8)) where
  regs r := if r = .esp then 0x10000 else 0
  eip := 0x100
  cs := 8
  eflags := 2
  shadow := false
  control := ⟨0, 0, 0, 0⟩
  mem := putU32 loneMem 0x10004 0x3000
  dev := []

theorem loadCpu_mem : loadCpu.mem = putU32 loneMem 0x10004 0x3000 := by simp only [loadCpu]

theorem idtLoad_delivers_lone : ∃ c', Loaded loneSymbols loadCpu c' ∧
    deliver 0x20 c' = some (enter ⟨0x320, kernelCodeSelector, 0xee⟩ c') := by
  have harg : arg loadCpu 0 = loneSymbols.idtrDescriptor := by
    rw [arg, loadCpu_mem]
    exact u32_putU32 _ _ (by decide)
  obtain ⟨k, hloaded, hdeliver⟩ := (idtLoad_delivers (q := 0x106) loneSymbols_linked (M := loadMachine)
    ⟨rfl, rfl, rfl, rfl, rfl, rfl, rfl, rfl, rfl, rfl, rfl, rfl, rfl⟩ (m := fun _ => 0) rfl harg (by decide)
    (by decide) (by decide) (fun x hx => by
      rw [loadCpu_mem, putU32_of_not_mem fun h => by have := tables_lone hx; omega, loneMem])
    fun x hx => ⟨.inl (lt_of_lt_of_le (tables_lone hx) (by decide)), Set.notMem_empty x⟩).steps
  exact ⟨_, hloaded, (hdeliver 0x20).trans (if_pos (by decide))⟩

end

end KokoOs.Interrupts
