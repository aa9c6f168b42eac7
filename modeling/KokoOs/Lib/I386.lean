/-
# A part of the i386

The instructions that a small kernel writes by hand: moves, the stack, ports, jumps, calls, and the
return from an interrupt, in 32-bit protected mode with flat segments.  Registers, `eip`, `cs`, the
flags and the words on the stack are numbers below `2 ^ 32`.  Of the flags that instructions set,
only the zero flag is kept up.

Code is a partial map from addresses to instructions.  How long an instruction is does not matter for
what it does, so that the lengths are a parameter.  Some addresses are those of functions that are given
by what they do as a whole (`given`), such as those that a compiler has made.

* **Running.**  `Machine.step` runs one instruction, or one such function, and `Leads` says that a
  state is reached, through states of a kind.  Instructions that do nothing but work on registers,
  ports and memory are run as a list (`Leads.straight`).
* **The stack.**  `OnStack` says which words have been pushed since a certain moment, and `Keeps`
  that the rest of memory is as it was.
* **Functions.**  `Cdecl` is what the callers of a compiled function rely on, and `Leads.routine` that a
  routine in assembly with a frame around plain instructions meets it.
* **Interrupts.**  `deliver` is an interrupt through a gate of the descriptor table in memory, and
  `Interleaved` a machine on which they come in between any two instructions.  `Leads.interleaved`
  is the induction over such runs: where the program leads back to, it leads back to however it is
  interrupted.
-/
import KokoOs.Lib.Ports
import KokoOs.Lib.Run

namespace I386

open Bytes Ports
open Runs (Run)

/-! ## 1. The machine -/

inductive Reg where
  | eax | ecx | edx | ebx | esp | ebp | esi | edi
  deriving DecidableEq

/-- The control registers, and the register of the interrupt descriptor table. -/
structure Control where
  cr0 : Nat
  cr3 : Nat
  idtLimit : Nat
  idtBase : Nat

/-- The state: `shadow` says that the last instruction has been `sti`, which lets no interrupt through
before the next one, and `dev` is what is behind the ports. -/
structure Cpu (δ : Type) where
  regs : Reg → Nat
  eip : Nat
  cs : Nat
  eflags : Nat
  shadow : Bool
  control : Control
  mem : Mem
  dev : δ

inductive Instr where
  | mov (dst src : Reg)
  | movImm (dst : Reg) (v : Nat)
  | load (dst base : Reg) (disp : Nat)
  | movDx (v : Nat)
  | movAl (v : Nat)
  | push (r : Reg)
  | pop (r : Reg)
  | pushad
  | popad
  | xor (dst src : Reg)
  | orImm (dst : Reg) (v : Nat)
  | orAl (v : Nat)
  | shr (dst : Reg) (n : Nat)
  | testAl (v : Nat)
  | jmp (target : Nat)
  | jz (target : Nat)
  | loop (target : Nat)
  | call (target : Nat)
  | callReg (r : Reg)
  | ret
  | iret
  | cli
  | sti
  | inAl
  | inAx
  | outAl
  | outAx
  | inImm (port : Nat)
  | outImm (port : Nat)
  | repInsw
  | lidt (r : Reg)
  | readCr0 (dst : Reg)
  | writeCr0 (src : Reg)
  | writeCr3 (src : Reg)
  deriving DecidableEq

namespace Cpu

variable {δ : Type}

def setReg (r : Reg) (v : Nat) (c : Cpu δ) : Cpu δ := { c with regs := Function.update c.regs r v }

theorem setReg_self (r : Reg) (v : Nat) (c : Cpu δ) : (c.setReg r v).regs r = v := by
  simp [setReg]

theorem setReg_of_ne {r q : Reg} (h : q ≠ r) (v : Nat) (c : Cpu δ) : (c.setReg r v).regs q = c.regs q := by
  simp [setReg, h]

def jump (target : Nat) (c : Cpu δ) : Cpu δ := { c with eip := target }

/-- To the next instruction. -/
def advance (next : Nat) (c : Cpu δ) : Cpu δ := { c with eip := next, shadow := false }

/-- The low bytes of `eax` and the low half of `edx`. -/
def al (c : Cpu δ) : UInt8 := UInt8.ofNat (c.regs .eax)
def ax (c : Cpu δ) : Nat := c.regs .eax % 65536
def dx (c : Cpu δ) : Nat := c.regs .edx % 65536
def setAl (v : UInt8) (c : Cpu δ) : Cpu δ := c.setReg .eax (c.regs .eax / 256 * 256 + v.toNat)
def setDx (v : Nat) (c : Cpu δ) : Cpu δ := c.setReg .edx (c.regs .edx / 65536 * 65536 + v % 65536)
def setAx (v : Nat) (c : Cpu δ) : Cpu δ := c.setReg .eax (c.regs .eax / 65536 * 65536 + v % 65536)

/-- The stack grows downwards, by words of four bytes. -/
def pushWord (v : Nat) (c : Cpu δ) : Cpu δ :=
  let sp := (c.regs .esp + 2 ^ 32 - 4) % 2 ^ 32
  { c.setReg .esp sp with mem := putU32 c.mem sp v }

def topWord (c : Cpu δ) : Nat := u32 c.mem (c.regs .esp)

def dropWord (c : Cpu δ) : Cpu δ := c.setReg .esp ((c.regs .esp + 4) % 2 ^ 32)

/-- Bit 9 of the flags lets interrupts through, and bit 6 is the zero flag. -/
def interruptFlag (c : Cpu δ) : Bool := c.eflags.testBit 9
def interruptible (c : Cpu δ) : Bool := c.interruptFlag && !c.shadow
def zeroFlag (c : Cpu δ) : Bool := c.eflags.testBit 6
def setZero (zero : Bool) (c : Cpu δ) : Cpu δ :=
  { c with eflags := if zero then c.eflags ||| 0x40 else c.eflags &&& 0xffffffbf }

/-- An arithmetic result. -/
def setResult (dst : Reg) (v : Nat) (c : Cpu δ) : Cpu δ := (c.setReg dst v).setZero (v == 0)

/-- A word is taken off the stack into a register. -/
def popReg (r : Reg) (c : Cpu δ) : Cpu δ := c.dropWord.setReg r c.topWord

/-- The registers of `pushad` and `popad`, in the order in which they are pushed. -/
def allRegs : List Reg := [.eax, .ecx, .edx, .ebx, .esp, .ebp, .esi, .edi]

def pushWords : List Nat → Cpu δ → Cpu δ
  | [], c => c
  | v :: vs, c => (c.pushWord v).pushWords vs

/-- The stack pointer that `pushad` has pushed is skipped. -/
def popRegs : List Reg → Cpu δ → Cpu δ
  | [], c => c
  | r :: rs, c => (if r = .esp then c.dropWord else c.popReg r).popRegs rs

/-- `rep insw`: words from the port go to the address in `edi`. -/
def insWords (ports : PortMap δ) : Nat → Cpu δ → Cpu δ
  | 0, c => c
  | fuel + 1, c =>
    let (v, dev) := ports.inw c.dx c.dev
    insWords ports fuel { c.setReg .edi ((c.regs .edi + 2) % 2 ^ 32) with
      mem := putU16 c.mem (c.regs .edi) v, dev }

end Cpu

open Cpu

/-- What an instruction does, once `eip` is at the next one. -/
def exec {δ : Type} (ports : PortMap δ) (i : Instr) (c : Cpu δ) : Cpu δ :=
  match i with
  | .mov dst src => c.setReg dst (c.regs src)
  | .movImm dst v => c.setReg dst v
  | .load dst base disp => c.setReg dst (u32 c.mem ((c.regs base + disp) % 2 ^ 32))
  | .movDx v => c.setDx v
  | .movAl v => c.setAl (UInt8.ofNat v)
  | .push r => c.pushWord (c.regs r)
  | .pop r => c.popReg r
  | .pushad => c.pushWords (allRegs.map c.regs)
  | .popad => c.popRegs allRegs.reverse
  | .xor dst src => c.setResult dst (c.regs dst ^^^ c.regs src)
  | .orImm dst v => c.setResult dst (c.regs dst ||| v)
  | .orAl v => (c.setAl (c.al ||| UInt8.ofNat v)).setZero (c.al ||| UInt8.ofNat v == 0)
  | .shr dst n => c.setResult dst (c.regs dst >>> n)
  | .testAl v => c.setZero (c.al &&& UInt8.ofNat v == 0)
  | .jmp target => c.jump target
  | .jz target => if c.zeroFlag then c.jump target else c
  | .loop target =>
    let n := (c.regs .ecx + 2 ^ 32 - 1) % 2 ^ 32
    if n ≠ 0 then (c.setReg .ecx n).jump target else c.setReg .ecx n
  | .call target => (c.pushWord c.eip).jump target
  | .callReg r => (c.pushWord c.eip).jump (c.regs r)
  | .ret => c.dropWord.jump c.topWord
  | .iret =>
    let c1 := c.dropWord
    let c2 := c1.dropWord
    { c2.dropWord.jump c.topWord with cs := c1.topWord, eflags := c2.topWord }
  | .cli => { c with eflags := c.eflags &&& 0xfffffdff }
  | .sti => { c with eflags := c.eflags ||| 0x200, shadow := true }
  | .inAl => { c.setAl (ports.inb c.dx c.dev).1 with dev := (ports.inb c.dx c.dev).2 }
  | .inAx => { c.setAx (ports.inw c.dx c.dev).1 with dev := (ports.inw c.dx c.dev).2 }
  | .outAl => { c with dev := ports.outb c.dx c.al c.dev }
  | .outAx => { c with dev := ports.outw c.dx c.ax c.dev }
  | .inImm port => { c.setAl (ports.inb port c.dev).1 with dev := (ports.inb port c.dev).2 }
  | .outImm port => { c with dev := ports.outb port c.al c.dev }
  | .repInsw => (c.insWords ports (c.regs .ecx)).setReg .ecx 0
  | .lidt r => { c with control.idtLimit := u16 c.mem (c.regs r)
                        control.idtBase := u32 c.mem (c.regs r + 2) }
  | .readCr0 dst => c.setReg dst c.control.cr0
  | .writeCr0 src => { c with control.cr0 := c.regs src }
  | .writeCr3 src => { c with control.cr3 := c.regs src }

/-- A program: the instructions, their lengths, and the functions that are given as a whole. -/
structure Machine (δ : Type) where
  ports : PortMap δ
  code : Nat → Option Instr
  size : Instr → Nat
  given : Nat → Option (Cpu δ → Cpu δ)

variable {δ : Type}

/-- One instruction, or one function that is given as a whole.  Where there is neither, the machine stays
where it is. -/
def Machine.step (M : Machine δ) (c : Cpu δ) : Cpu δ :=
  match M.given c.eip with
  | some f => { f c with shadow := false }
  | none =>
    match M.code c.eip with
    | some i => exec M.ports i (c.advance (c.eip + M.size i))
    | none => c

/-- The instructions are at `p` and the addresses behind it, up to `q`. -/
def Placed (M : Machine δ) : Nat → List Instr → Nat → Prop
  | p, [], q => p = q
  | p, i :: is, q => M.code p = some i ∧ M.given p = none ∧ Placed M (p + M.size i) is q

/-- The low byte of a register is the one that was put there. -/
theorem ofNat_low (x : Nat) (v : UInt8) : UInt8.ofNat (x / 256 * 256 + v.toNat) = v := by
  have hv := v.toNat_lt
  exact UInt8.toNat_inj.mp (by rw [UInt8.toNat_ofNat']; omega)

theorem al_setAl (v : UInt8) (c : Cpu δ) : (c.setAl v).al = v := by
  rw [setAl, al, setReg_self, ofNat_low]

theorem dx_setDx (v : Nat) (c : Cpu δ) : (c.setDx v).dx = v % 65536 := by
  rw [setDx, dx, setReg_self]
  omega

theorem zeroFlag_setZero (zero : Bool) (c : Cpu δ) : (c.setZero zero).zeroFlag = zero := by
  cases zero with
  | false =>
    change (c.eflags &&& 0xffffffbf).testBit 6 = false
    rw [Nat.testBit_and, show Nat.testBit 0xffffffbf 6 = false by decide, Bool.and_false]
  | true =>
    change (c.eflags ||| 0x40).testBit 6 = true
    rw [Nat.testBit_or, show Nat.testBit 0x40 6 = true by decide, Bool.or_true]

theorem dropWord_esp (c : Cpu δ) : c.dropWord.regs .esp = (c.regs .esp + 4) % 2 ^ 32 := by
  rw [dropWord, setReg_self]

/-! What the operations on the stack leave alone. -/

@[simp] theorem setReg_mem (r : Reg) (v : Nat) (c : Cpu δ) : (c.setReg r v).mem = c.mem := rfl
@[simp] theorem setReg_eflags (r : Reg) (v : Nat) (c : Cpu δ) : (c.setReg r v).eflags = c.eflags := rfl
@[simp] theorem setReg_eip (r : Reg) (v : Nat) (c : Cpu δ) : (c.setReg r v).eip = c.eip := rfl
@[simp] theorem setReg_dev (r : Reg) (v : Nat) (c : Cpu δ) : (c.setReg r v).dev = c.dev := rfl
@[simp] theorem setReg_control (r : Reg) (v : Nat) (c : Cpu δ) : (c.setReg r v).control = c.control := rfl

theorem pushWords_eflags (vs : List Nat) (c : Cpu δ) : (c.pushWords vs).eflags = c.eflags := by
  induction vs generalizing c with
  | nil => rfl
  | cons v vs ih => exact ih (c.pushWord v)

theorem pushWords_control (vs : List Nat) (c : Cpu δ) : (c.pushWords vs).control = c.control := by
  induction vs generalizing c with
  | nil => rfl
  | cons v vs ih => exact ih (c.pushWord v)

theorem pushWords_eip (vs : List Nat) (c : Cpu δ) : (c.pushWords vs).eip = c.eip := by
  induction vs generalizing c with
  | nil => rfl
  | cons v vs ih => exact ih (c.pushWord v)

theorem pushWords_dev (vs : List Nat) (c : Cpu δ) : (c.pushWords vs).dev = c.dev := by
  induction vs generalizing c with
  | nil => rfl
  | cons v vs ih => exact ih (c.pushWord v)

/-- Popping registers changes nothing else. -/
theorem popRegs_rest (rs : List Reg) (c : Cpu δ) : (c.popRegs rs).mem = c.mem ∧
    (c.popRegs rs).eflags = c.eflags ∧ (c.popRegs rs).control = c.control ∧
    (c.popRegs rs).eip = c.eip ∧ (c.popRegs rs).dev = c.dev := by
  induction rs generalizing c with
  | nil => exact ⟨rfl, rfl, rfl, rfl, rfl⟩
  | cons r rs ih =>
    by_cases hr : r = .esp
    · simpa [Cpu.popRegs, hr, Cpu.dropWord] using ih c.dropWord
    · simpa [Cpu.popRegs, hr, Cpu.popReg, Cpu.dropWord] using ih (c.popReg r)

/-- Code that is one list of instructions, at `p` and behind. -/
def listing (p : Nat) (is : List Instr) (a : Nat) : Option Instr := if p ≤ a then is[a - p]? else none

theorem Placed.le {M : Machine δ} {q : Nat} {is : List Instr} : ∀ {p : Nat}, Placed M p is q → p ≤ q := by
  induction is with
  | nil => exact fun h => Nat.le_of_eq h
  | cons i is ih => exact fun h => le_trans (Nat.le_add_right ..) (ih h.2.2)

/-! ## 2. Runs -/

/-- From a state, one in `Q` is reached, through states in `C`. -/
inductive Leads (M : Machine δ) (C Q : Cpu δ → Prop) : Cpu δ → Prop
  | here {c : Cpu δ} : Q c → Leads M C Q c
  | next {c : Cpu δ} : C c → Leads M C Q (M.step c) → Leads M C Q c

variable {M : Machine δ} {c : Cpu δ} {C Q Q' : Cpu δ → Prop}

/-- A run goes on from where another has led. -/
theorem Leads.trans (h : Leads M C Q c) (hQ : ∀ c', Q c' → Leads M C Q' c') : Leads M C Q' c := by
  induction h with
  | here h => exact hQ _ h
  | next hC _ ih => exact .next hC ih

theorem Leads.mono (h : Leads M C Q c) (hQ : ∀ c', Q c' → Q' c') : Leads M C Q' c :=
  h.trans fun c' h => .here (hQ c' h)

theorem Leads.steps (h : Leads M C Q c) : ∃ k, Q (M.step^[k] c) := by
  induction h with
  | here h => exact ⟨0, h⟩
  | next _ _ ih =>
    obtain ⟨k, hk⟩ := ih
    exact ⟨k + 1, hk⟩

/-- An instruction that is placed where the machine is. -/
theorem Placed.step {p q : Nat} {i : Instr} {is : List Instr} (h : Placed M p (i :: is) q)
    (hp : c.eip = p) :
    M.step c = exec M.ports i (c.advance (p + M.size i)) ∧ Placed M (p + M.size i) is q := by
  obtain ⟨hcode, hgiven, hrest⟩ := h
  refine ⟨?_, hrest⟩
  rw [Machine.step, hp, hgiven, hcode]

/-- **One instruction further.** -/
theorem Leads.instr {p q : Nat} {i : Instr} {is : List Instr} (h : Placed M p (i :: is) q)
    (hp : c.eip = p) (hC : C c) (hnext : Placed M (p + M.size i) is q →
      Leads M C Q (exec M.ports i (c.advance (p + M.size i)))) : Leads M C Q c := by
  obtain ⟨hstep, hrest⟩ := h.step hp
  exact .next hC (hstep ▸ hnext hrest)

/-- A function that is given as a whole. -/
theorem Leads.given {f : Cpu δ → Cpu δ} (h : M.given c.eip = some f) (hC : C c)
    (hnext : Leads M C Q { f c with shadow := false }) : Leads M C Q c := by
  refine .next hC ?_
  rw [Machine.step, h]
  exact hnext

/-! ## 3. The stack -/

/-- Since the stack pointer was `top`, the words `ws` have been pushed. -/
structure OnStack (top : Nat) (c : Cpu δ) (ws : List Nat) : Prop where
  esp : c.regs .esp + 4 * ws.length = top
  words : ∀ i (h : i < ws.length), u32 c.mem (c.regs .esp + 4 * i) = ws[i]

/-- Memory is as it was, but for the addresses from `lo` to `top` and those in `own`. -/
def Keeps (lo top : Nat) (own : Set Nat) (c c' : Cpu δ) : Prop :=
  ∀ x, x < lo ∨ top ≤ x → x ∉ own → c'.mem x = c.mem x

theorem Keeps.trans {lo top : Nat} {own : Set Nat} {c c' c'' : Cpu δ} (h : Keeps lo top own c c')
    (h' : Keeps lo top own c' c'') : Keeps lo top own c c'' :=
  fun x hx hown => (h' x hx hown).trans (h x hx hown)

section

variable {lo top : Nat} {own : Set Nat} {ws : List Nat} {v w : Nat} {r : Reg}

theorem OnStack.start (c : Cpu δ) : OnStack (c.regs .esp) c [] where
  esp := by simp
  words i h := absurd h (by simp)

/-- What only sees memory and the stack pointer keeps the stack. -/
theorem OnStack.congr {c' : Cpu δ} (h : OnStack top c ws) (hesp : c'.regs .esp = c.regs .esp)
    (hmem : ∀ x, c.regs .esp ≤ x → x < top → c'.mem x = c.mem x) : OnStack top c' ws where
  esp := hesp ▸ h.esp
  words i hi := by
    rw [hesp, ← h.words i hi]
    have := h.esp
    exact u32_congr fun x hx hx' => hmem x (by omega) (by omega)

theorem OnStack.advance (h : OnStack top c ws) (next : Nat) : OnStack top (c.advance next) ws :=
  h.congr rfl fun _ _ _ => rfl

theorem OnStack.setReg (h : OnStack top c ws) (hr : r ≠ .esp) : OnStack top (c.setReg r v) ws :=
  h.congr (Function.update_of_ne hr.symm _ _) fun _ _ _ => rfl

theorem pushWord_eq (v : Nat) (hroom : 4 ≤ c.regs .esp) (hesp : c.regs .esp < 2 ^ 32) :
    c.pushWord v = { c.setReg .esp (c.regs .esp - 4) with mem := putU32 c.mem (c.regs .esp - 4) v } := by
  unfold Cpu.pushWord
  rw [show (c.regs .esp + 2 ^ 32 - 4) % 2 ^ 32 = c.regs .esp - 4 by omega]

/-- **Pushing.** -/
theorem OnStack.push (h : OnStack top c ws) (htop : top < 2 ^ 32) (hroom : 4 * (ws.length + 1) ≤ top)
    (hv : v < 2 ^ 32) : OnStack top (c.pushWord v) (v :: ws) := by
  have hsp := h.esp
  rw [pushWord_eq v (by omega) (by omega)]
  have hesp := setReg_self .esp (c.regs .esp - 4) c
  refine ⟨?_, fun i hi => ?_⟩
  · rw [List.length_cons]
    change (c.setReg .esp (c.regs .esp - 4)).regs .esp + _ = _
    omega
  change u32 (putU32 c.mem _ v) ((c.setReg .esp (c.regs .esp - 4)).regs .esp + 4 * i) = _
  rw [hesp]
  cases i with
  | zero => rw [Nat.mul_zero, Nat.add_zero, List.getElem_cons_zero, u32_putU32 _ _ hv]
  | succ i =>
    rw [u32_putU32_of_apart (by omega), List.getElem_cons_succ, ← h.words i (by simpa using hi),
      show c.regs .esp - 4 + 4 * (i + 1) = c.regs .esp + 4 * i by omega]

theorem OnStack.push_keeps (h : OnStack top c ws) (own : Set Nat) (v : Nat) (htop : top < 2 ^ 32)
    (hroom : lo + 4 * (ws.length + 1) ≤ top) : Keeps lo top own c (c.pushWord v) := by
  intro x hx _
  have hsp := h.esp
  rw [pushWord_eq v (by omega) (by omega)]
  exact putU32_of_not_mem (by omega)

/-- **Popping.** -/
theorem OnStack.pop (h : OnStack top c (w :: ws)) (htop : top < 2 ^ 32) :
    c.topWord = w ∧ OnStack top c.dropWord ws := by
  have hsp := h.esp
  rw [List.length_cons] at hsp
  have hesp : c.dropWord.regs .esp = c.regs .esp + 4 := by
    unfold Cpu.dropWord Cpu.setReg
    simp only [Function.update_self]
    omega
  have htop := h.words 0 (by simp)
  rw [Nat.mul_zero, Nat.add_zero, List.getElem_cons_zero] at htop
  refine ⟨htop, by omega, fun i hi => ?_⟩
  have hword := h.words (i + 1) (by simpa using hi)
  rw [List.getElem_cons_succ] at hword
  rw [hesp, ← hword, show c.regs .esp + 4 * (i + 1) = c.regs .esp + 4 + 4 * i by omega]
  rfl

/-- Popping into a register leaves the others. -/
theorem OnStack.popReg (h : OnStack top c (w :: ws)) (htop : top < 2 ^ 32) (hr : r ≠ .esp) :
    OnStack top (c.popReg r) ws ∧ (c.popReg r).regs r = w ∧
      ∀ q, q ≠ r → q ≠ .esp → (c.popReg r).regs q = c.regs q := by
  obtain ⟨hword, hdrop⟩ := h.pop htop
  refine ⟨hdrop.setReg hr, ?_, fun q hq hesp => ?_⟩
  · rw [← hword]
    exact setReg_self ..
  · exact (setReg_of_ne hq _ _).trans (setReg_of_ne hesp _ _)

theorem pushWord_of_ne (v : Nat) (hr : r ≠ .esp) : (c.pushWord v).regs r = c.regs r := by
  simp only [Cpu.pushWord, setReg_of_ne hr]

/-- A word has been pushed on an empty stack. -/
structure Pushed (c : Cpu δ) (v : Nat) (c' : Cpu δ) : Prop where
  stack : OnStack (c.regs .esp) c' [v]
  keeps : Keeps (c.regs .esp - 4) (c.regs .esp) ∅ c c'
  regs : ∀ r, r ≠ .esp → c'.regs r = c.regs r
  dev : c'.dev = c.dev

theorem pushWord_pushed (hroom : 4 ≤ c.regs .esp) (hesp : c.regs .esp < 2 ^ 32) (hv : v < 2 ^ 32) :
    Pushed c v (c.pushWord v) where
  stack := (OnStack.start c).push hesp (by simpa using hroom) hv
  keeps := (OnStack.start c).push_keeps ∅ v hesp (by simpa using by omega)
  regs _ hr := pushWord_of_ne v hr
  dev := rfl

/-- **`push`.** -/
theorem Leads.push {p q : Nat} {is : List Instr} (h : Placed M p (.push r :: is) q) (hp : c.eip = p)
    (hC : C c) (hroom : 4 ≤ c.regs .esp) (hesp : c.regs .esp < 2 ^ 32) (hv : c.regs r < 2 ^ 32)
    (hnext : ∀ c', Pushed c (c.regs r) c' → Placed M c'.eip is q → Leads M C Q c') : Leads M C Q c := by
  refine Leads.instr h hp hC fun hrest => ?_
  have hpush : Pushed (c.advance (p + M.size (.push r))) (c.regs r)
      ((c.advance (p + M.size (.push r))).pushWord (c.regs r)) := pushWord_pushed hroom hesp hv
  exact hnext _ ⟨hpush.stack, hpush.keeps, hpush.regs, hpush.dev⟩ hrest

/-- **`call`**: the address of the next instruction is on the stack. -/
theorem Leads.call {p q target : Nat} {is : List Instr} (h : Placed M p (.call target :: is) q)
    (hp : c.eip = p) (hC : C c) (hroom : 4 ≤ c.regs .esp) (hesp : c.regs .esp < 2 ^ 32) (hq : q < 2 ^ 32)
    (hnext : ∀ back c', Pushed c back c' → c'.eip = target → Placed M back is q → Leads M C Q c') :
    Leads M C Q c := by
  refine Leads.instr h hp hC fun hrest => ?_
  obtain ⟨back, hback⟩ : ∃ back, back = p + M.size (.call target) := ⟨_, rfl⟩
  rw [← hback] at hrest ⊢
  have hpush : Pushed (c.advance back) back ((c.advance back).pushWord back) :=
    pushWord_pushed hroom hesp (lt_of_le_of_lt hrest.le hq)
  -- `pushWord` is not unfolded when the jump is put behind it
  generalize hc1 : (c.advance back).pushWord back = c1 at hpush
  have hexec : exec M.ports (.call target) (c.advance back) = c1.jump target :=
    congrArg (Cpu.jump target) hc1
  rw [hexec]
  exact hnext back _ ⟨hpush.stack.congr rfl fun _ _ _ => rfl, hpush.keeps, hpush.regs, hpush.dev⟩ rfl hrest

/-- **Pushing many words**, the last of them on top. -/
theorem OnStack.pushWords {vs : List Nat} (lo : Nat) (htop : top < 2 ^ 32) (hvs : ∀ v ∈ vs, v < 2 ^ 32)
    (own : Set Nat) (h : OnStack top c ws)
    (hroom : lo + 4 * (ws.length + vs.length) ≤ top) :
    OnStack top (c.pushWords vs) (vs.reverse ++ ws) ∧ Keeps lo top own c (c.pushWords vs) ∧
      ∀ r, r ≠ .esp → (c.pushWords vs).regs r = c.regs r := by
  induction vs generalizing c ws with
  | nil => exact ⟨h, fun _ _ _ => rfl, fun _ _ => rfl⟩
  | cons v vs ih =>
    rw [List.length_cons] at hroom
    have hpush := h.push htop (by omega) (hvs v (by simp))
    have hkeep : Keeps lo top own c (c.pushWord v) := h.push_keeps own v htop (by omega)
    obtain ⟨hwords, hkeeps, hregs⟩ := ih (fun w hw => hvs w (by simp [hw])) hpush
      (by rw [List.length_cons]; omega)
    refine ⟨?_, hkeep.trans hkeeps, fun r hr => (hregs r hr).trans (pushWord_of_ne v hr)⟩
    rw [List.reverse_cons, List.append_assoc]
    exact hwords

/-- **Popping many registers** that have been pushed with the values `f`. -/
theorem OnStack.popRegs {rs : List Reg} (f : Reg → Nat) (htop : top < 2 ^ 32)
    (h : OnStack top c (rs.map f ++ ws)) : OnStack top (c.popRegs rs) ws ∧
      ∀ r, r ≠ .esp → (c.popRegs rs).regs r = if r ∈ rs then f r else c.regs r := by
  induction rs generalizing c with
  | nil => exact ⟨h, fun r _ => by simp [Cpu.popRegs]⟩
  | cons q rs ih =>
    obtain ⟨hword, hdrop⟩ := h.pop htop
    unfold Cpu.popRegs
    by_cases hq : q = .esp
    · obtain ⟨hws, hregs⟩ := ih hdrop
      rw [if_pos hq]
      refine ⟨hws, fun r hr => ?_⟩
      rw [hregs r hr, show c.dropWord.regs r = c.regs r from setReg_of_ne hr _ _]
      simp [show r ≠ q from fun h => hr (h.trans hq)]
    · have hfirst : OnStack top c (f q :: (rs.map f ++ ws)) := h
      obtain ⟨hpop, hr0, hothers⟩ := hfirst.popReg htop hq
      obtain ⟨hws, hregs⟩ := ih hpop
      rw [if_neg hq]
      refine ⟨hws, fun r hr => ?_⟩
      rw [hregs r hr]
      by_cases hrq : r = q
      · simp [hrq, hr0]
      · simp [hrq, hothers r hrq hr]

/-- What `pushad` has pushed `popad` brings back. -/
theorem OnStack.popad (f : Reg → Nat) (htop : top < 2 ^ 32)
    (h : OnStack top c ((allRegs.map f).reverse ++ ws)) : OnStack top (c.popRegs allRegs.reverse) ws ∧
      ∀ r, r ≠ .esp → (c.popRegs allRegs.reverse).regs r = f r := by
  rw [← List.map_reverse] at h
  obtain ⟨hws, hregs⟩ := h.popRegs f htop
  refine ⟨hws, fun r hr => (hregs r hr).trans (if_pos ?_)⟩
  cases r <;> decide

end

/-! ## 4. Calls of compiled functions -/

/-- All words of the state have 32 bits. -/
structure Sound (c : Cpu δ) : Prop where
  regs : ∀ r, c.regs r < 2 ^ 32
  eip : c.eip < 2 ^ 32
  cs : c.cs < 2 ^ 32
  eflags : c.eflags < 2 ^ 32

/-- Where nothing is asked of the states on the way. -/
abbrev GetsTo (M : Machine δ) (Q : Cpu δ → Prop) (c : Cpu δ) : Prop := Leads M (fun _ => True) Q c

/-- A function that was called at `c` has set up its frame: `ebp` and the return address are on the stack,
and its arguments are at `ebp + 8` and the words behind. -/
structure Entered (c c' : Cpu δ) : Prop where
  stack : OnStack (c.regs .esp + 4) c' [c.regs .ebp, c.topWord]
  ebp : c'.regs .ebp + 4 = c.regs .esp
  regs : ∀ r, r ≠ .esp → r ≠ .ebp → c'.regs r = c.regs r
  keeps : Keeps (c.regs .esp - 4) (c.regs .esp) ∅ c c'
  eflags : c'.eflags = c.eflags
  cs : c'.cs = c.cs
  control : c'.control = c.control
  dev : c'.dev = c.dev

/-- An argument of the function. -/
def arg (c : Cpu δ) (k : Nat) : Nat := u32 c.mem (c.regs .esp + 4 + 4 * k)

section

variable {p q k : Nat} {is : List Instr} {c' : Cpu δ}

theorem Entered.arg_eq (h : Entered c c') (harg : c.regs .esp + 8 + 4 * k ≤ 2 ^ 32) :
    u32 c'.mem ((c'.regs .ebp + (8 + 4 * k)) % 2 ^ 32) = arg c k := by
  have hebp := h.ebp
  rw [Nat.mod_eq_of_lt (by omega), show c'.regs .ebp + (8 + 4 * k) = c.regs .esp + 4 + 4 * k by omega]
  exact u32_congr fun x hx _ => h.keeps x (.inr (by omega)) (Set.notMem_empty x)

/-- **`push ebp; mov ebp, esp`.** -/
theorem Leads.prologue (hp : Placed M p (.push .ebp :: .mov .ebp .esp :: is) q) (heip : c.eip = p)
    (hroom : 4 ≤ c.regs .esp) (hesp : c.regs .esp + 4 < 2 ^ 32) (hebp : c.regs .ebp < 2 ^ 32)
    (hnext : ∀ c', Entered c c' → Placed M c'.eip is q → GetsTo M Q c') : GetsTo M Q c := by
  refine Leads.instr hp heip trivial fun hp1 => Leads.instr hp1 rfl trivial fun hp2 => hnext _ ?_ hp2
  obtain ⟨c0, hc0⟩ : ∃ c0, c0 = c.advance (p + M.size (.push .ebp)) := ⟨_, rfl⟩
  obtain ⟨c1, hc1⟩ : ∃ c1, c1 = c0.pushWord (c0.regs .ebp) := ⟨_, rfl⟩
  have hregs0 : ∀ r, c0.regs r = c.regs r := fun r => by rw [hc0]; rfl
  have hmem0 : c0.mem = c.mem := by rw [hc0]; rfl
  have hstart : OnStack (c.regs .esp + 4) c0 [c.topWord] :=
    ⟨by rw [hregs0]; rfl, fun i hi => by
      obtain rfl : i = 0 := by simpa using hi
      rw [hregs0, hmem0]
      rfl⟩
  have hpush : OnStack (c.regs .esp + 4) c1 [c.regs .ebp, c.topWord] := by
    rw [hc1, hregs0]
    exact hstart.push hesp (by simpa using hroom) hebp
  have hregs1 : ∀ r, r ≠ .esp → c1.regs r = c.regs r := fun r hr => by
    rw [hc1, pushWord_of_ne _ hr, hregs0]
  have hkeeps : Keeps (c.regs .esp - 4) (c.regs .esp) ∅ c c1 := fun x hx _ => by
    rw [hc1, pushWord_eq _ (by rw [hregs0]; omega) (by rw [hregs0]; omega), hregs0, ← hmem0]
    exact putU32_of_not_mem (by omega)
  simp only [exec, ← hc0, ← hc1]
  have hsp := hpush.esp
  rw [List.length_cons, List.length_singleton] at hsp
  refine ⟨(hpush.advance _).setReg (show Reg.ebp ≠ .esp by decide), ?_,
    fun r hr hr' => (setReg_of_ne hr' ..).trans (hregs1 r hr), hkeeps, ?_, ?_, ?_, ?_⟩
  · rw [setReg_self]
    change c1.regs .esp + 4 = _
    omega
  all_goals rw [hc1, hc0]; rfl

/-- The function has returned from `c'`: nothing but `eip`, `esp` and `ebp` is changed there. -/
structure Left (c c' c'' : Cpu δ) : Prop where
  eip : c''.eip = c.topWord
  esp : c''.regs .esp = c.regs .esp + 4
  ebp : c''.regs .ebp = c.regs .ebp
  regs : ∀ r, r ≠ .esp → r ≠ .ebp → c''.regs r = c'.regs r
  mem : c''.mem = c'.mem
  eflags : c''.eflags = c'.eflags
  cs : c''.cs = c'.cs
  control : c''.control = c'.control
  dev : c''.dev = c'.dev

/-- **`pop ebp; ret`.** -/
theorem Leads.epilogue (hp : Placed M c'.eip [.pop .ebp, .ret] q)
    (h : OnStack (c.regs .esp + 4) c' [c.regs .ebp, c.topWord]) (hesp : c.regs .esp + 4 < 2 ^ 32)
    (hnext : ∀ c'', Left c c' c'' → Q c'') : GetsTo M Q c' := by
  refine Leads.instr hp rfl trivial fun hp1 => Leads.instr hp1 rfl trivial fun _ => .here (hnext _ ?_)
  obtain ⟨c0, hc0⟩ : ∃ c0, c0 = c'.advance (c'.eip + M.size (.pop .ebp)) := ⟨_, rfl⟩
  obtain ⟨c1, hc1⟩ : ∃ c1, c1 = c0.popReg .ebp := ⟨_, rfl⟩
  have hstart : OnStack (c.regs .esp + 4) c0 [c.regs .ebp, c.topWord] := by
    rw [hc0]
    exact h.advance _
  obtain ⟨hpop, hebp, hregs⟩ := hstart.popReg (r := .ebp) hesp (by decide)
  rw [← hc1] at hpop hebp hregs
  obtain ⟨hret, hdrop⟩ := hpop.pop hesp
  simp only [exec, ← hc0, ← hc1]
  have hdropped : ∀ r, r ≠ .esp → (c1.advance (c'.eip + M.size (.pop .ebp) + M.size .ret)).dropWord.regs
      r = c1.regs r := fun r hr => setReg_of_ne hr ..
  refine ⟨hret, hdrop.esp, (hdropped .ebp (by decide)).trans hebp, fun r hr hr' =>
    (hdropped r hr).trans ((hregs r hr' hr).trans (by rw [hc0]; rfl)), ?_, ?_, ?_, ?_, ?_⟩
  all_goals rw [hc1, hc0]; rfl

end

/-- An instruction that only works on `eax` and `edx`, ports and control registers. -/
def Instr.Plain : Instr → Prop
  | .load dst _ _ | .xor dst _ | .orImm dst _ | .readCr0 dst => dst = .eax ∨ dst = .edx
  | .inAl | .inAx | .outAl | .outAx | .writeCr0 _ | .writeCr3 _ => True
  | _ => False

instance : DecidablePred Instr.Plain := fun i => by
  cases i <;> dsimp only [Instr.Plain] <;> infer_instance

/-- What plain instructions leave alone. -/
structure PlainKept (c c' : Cpu δ) : Prop where
  regs : ∀ r, r ≠ .eax → r ≠ .edx → c'.regs r = c.regs r
  mem : c'.mem = c.mem
  cs : c'.cs = c.cs
  interruptFlag : c'.interruptFlag = c.interruptFlag

theorem interruptFlag_setZero (zero : Bool) (c : Cpu δ) :
    (c.setZero zero).interruptFlag = c.interruptFlag := by
  cases zero with
  | false =>
    change (c.eflags &&& 0xffffffbf).testBit 9 = _
    rw [Nat.testBit_and, show Nat.testBit 0xffffffbf 9 = true by decide, Bool.and_true]
    rfl
  | true =>
    change (c.eflags ||| 0x40).testBit 9 = _
    rw [Nat.testBit_or, show Nat.testBit 0x40 9 = false by decide, Bool.or_false]
    rfl

/-- One case for each plain instruction. -/
theorem Instr.Plain.kept {i : Instr} (h : i.Plain) (ports : PortMap δ) (c : Cpu δ) :
    PlainKept c (exec ports i c) := by
  have hset : ∀ dst v, dst = Reg.eax ∨ dst = Reg.edx → PlainKept c (c.setReg dst v) := by
    intro dst v hdst
    refine ⟨fun r hr hr' => setReg_of_ne ?_ v c, rfl, rfl, rfl⟩
    rcases hdst with rfl | rfl
    · exact hr
    · exact hr'
  have hresult : ∀ dst v, dst = Reg.eax ∨ dst = Reg.edx → PlainKept c (c.setResult dst v) := by
    intro dst v hdst
    have h := hset dst v hdst
    exact ⟨h.regs, rfl, rfl, (interruptFlag_setZero ..).trans h.interruptFlag⟩
  cases i with
  | load dst base disp => exact hset dst _ h
  | readCr0 dst => exact hset dst _ h
  | xor dst src => exact hresult dst _ h
  | orImm dst v => exact hresult dst _ h
  | inAl =>
    have h := hset .eax (c.regs .eax / 256 * 256 + (ports.inb c.dx c.dev).1.toNat) (.inl rfl)
    exact ⟨h.regs, rfl, rfl, rfl⟩
  | inAx =>
    have h := hset .eax (c.regs .eax / 65536 * 65536 + (ports.inw c.dx c.dev).1 % 65536) (.inl rfl)
    exact ⟨h.regs, rfl, rfl, rfl⟩
  | outAl => exact ⟨fun _ _ _ => rfl, rfl, rfl, rfl⟩
  | outAx => exact ⟨fun _ _ _ => rfl, rfl, rfl, rfl⟩
  | writeCr0 src => exact ⟨fun _ _ _ => rfl, rfl, rfl, rfl⟩
  | writeCr3 src => exact ⟨fun _ _ _ => rfl, rfl, rfl, rfl⟩
  | _ => exact h.elim

/-- An instruction that leaves `eip` at the next one. -/
def Instr.Straight : Instr → Prop
  | .jmp _ | .jz _ | .loop _ | .call _ | .callReg _ | .ret | .iret => False
  | _ => True

instance : DecidablePred Instr.Straight := fun i => by
  cases i <;> dsimp only [Instr.Straight] <;> infer_instance

theorem insWords_eip (ports : PortMap δ) (k : Nat) (c : Cpu δ) : (c.insWords ports k).eip = c.eip := by
  induction k generalizing c with
  | zero => rfl
  | succ k ih => exact ih _

/-- One case for each straight instruction. -/
theorem Instr.Straight.eip {i : Instr} (h : i.Straight) (ports : PortMap δ) (c : Cpu δ) :
    (exec ports i c).eip = c.eip := by
  cases i with
  | pushad => exact pushWords_eip _ c
  | popad => exact (popRegs_rest _ c).2.2.2.1
  | repInsw => exact insWords_eip ports _ c
  | jmp | jz | loop | call | callReg | ret | iret => exact h.elim
  | _ => rfl

theorem Instr.Plain.straight {i : Instr} (h : i.Plain) : i.Straight := by
  cases i <;> first | exact trivial | exact h.elim

/-- The instructions one behind the other. -/
def execAll (M : Machine δ) : List Instr → Cpu δ → Cpu δ
  | [], c => c
  | i :: is, c => execAll M is (exec M.ports i (c.advance (c.eip + M.size i)))

/-- **Straight instructions** run one behind the other. -/
theorem Leads.straight {is js : List Instr} {p q : Nat} (hstraight : ∀ i ∈ is, i.Straight)
    (hp : Placed M p (is ++ js) q) (heip : c.eip = p)
    (hnext : Placed M (execAll M is c).eip js q → GetsTo M Q (execAll M is c)) : GetsTo M Q c := by
  induction is generalizing c p with
  | nil => exact hnext (heip ▸ hp)
  | cons i is ih =>
    refine Leads.instr hp heip trivial fun hrest => ?_
    subst heip
    exact ih (fun j hj => hstraight j (by simp [hj])) hrest ((hstraight i (by simp)).eip ..) hnext

theorem execAll_plain {is : List Instr} (hplain : ∀ i ∈ is, i.Plain) (c : Cpu δ) :
    PlainKept c (execAll M is c) := by
  induction is generalizing c with
  | nil => exact ⟨fun _ _ _ => rfl, rfl, rfl, rfl⟩
  | cons i is ih =>
    have hkept := (hplain i (by simp)).kept M.ports (c.advance (c.eip + M.size i))
    have hrest := ih (fun j hj => hplain j (by simp [hj]))
      (exec M.ports i (c.advance (c.eip + M.size i)))
    exact ⟨fun r hr hr' => (hrest.regs r hr hr').trans (hkept.regs r hr hr'), hrest.mem.trans hkept.mem,
      hrest.cs.trans hkept.cs, hrest.interruptFlag.trans hkept.interruptFlag⟩

/-- A routine around plain instructions. -/
def routine (body : List Instr) : List Instr := .push .ebp :: .mov .ebp .esp :: (body ++ [.pop .ebp, .ret])

/-- The routine that was called at `c` has returned, as its callers expect. -/
structure RoutineReturned (c c' : Cpu δ) : Prop where
  eip : c'.eip = c.topWord
  esp : c'.regs .esp = c.regs .esp + 4
  regs : ∀ r, r ≠ .esp → r ≠ .eax → r ≠ .edx → c'.regs r = c.regs r
  cs : c'.cs = c.cs
  interruptFlag : c'.interruptFlag = c.interruptFlag
  keeps : Keeps (c.regs .esp - 4) (c.regs .esp) ∅ c c'

/-- **A routine** does what its body does, and returns. -/
theorem Leads.routine {body : List Instr} {q : Nat} (hplain : ∀ i ∈ body, i.Plain)
    (hp : Placed M c.eip (routine body) q) (hroom : 4 ≤ c.regs .esp) (hesp : c.regs .esp + 4 < 2 ^ 32)
    (hebp : c.regs .ebp < 2 ^ 32) : GetsTo M (fun c' => RoutineReturned c c' ∧ ∃ c1, Entered c c1 ∧
      c'.regs .eax = (execAll M body c1).regs .eax ∧ c'.dev = (execAll M body c1).dev ∧
      c'.control = (execAll M body c1).control) c := by
  refine Leads.prologue hp rfl hroom hesp hebp fun c1 h1 hbody => ?_
  have hkept := execAll_plain (M := M) hplain c1
  refine Leads.straight (fun i hi => (hplain i hi).straight) hbody rfl fun hrest => ?_
  have hstack := h1.stack.congr (hkept.regs .esp (by decide) (by decide)) fun x _ _ => by rw [hkept.mem]
  refine Leads.epilogue hrest hstack hesp fun c2 h2 => ?_
  refine ⟨⟨h2.eip, h2.esp, fun r hr hr' hr'' => ?_, ?_, ?_, fun x hx hx' => ?_⟩, c1, h1,
    h2.regs _ (by decide) (by decide), h2.dev, h2.control⟩
  · by_cases hb : r = .ebp
    · rw [hb, h2.ebp]
    · rw [h2.regs r hr hb, hkept.regs r hr' hr'', h1.regs r hr hb]
  · rw [h2.cs, hkept.cs, h1.cs]
  · have h3 : c1.interruptFlag = c.interruptFlag := by rw [Cpu.interruptFlag, h1.eflags]; rfl
    have h4 : c2.interruptFlag = (execAll M body c1).interruptFlag := by rw [Cpu.interruptFlag, h2.eflags]; rfl
    rw [h4, hkept.interruptFlag, h3]
  · rw [h2.mem, hkept.mem, h1.keeps x hx hx']

/-- A function without arguments has returned to its caller: what its caller relies on is as it was.  It
may have written to `room` bytes of the stack below it, and to the addresses in `own`. -/
structure Returned (own : Set Nat) (room : Nat) (c c' : Cpu δ) : Prop where
  eip : c'.eip = c.topWord
  esp : c'.regs .esp = c.regs .esp + 4
  saved : ∀ r, r = .ebx ∨ r = .ebp ∨ r = .esi ∨ r = .edi → c'.regs r = c.regs r
  cs : c'.cs = c.cs
  interruptFlag : c'.interruptFlag = c.interruptFlag
  control : c'.control = c.control
  keeps : Keeps (c.regs .esp - room) (c.regs .esp + 4) own c c'

/-- What the callers of a compiled function rely on: it returns whenever what it `own`s is well formed and
there is `room` on the stack. -/
structure Cdecl (own : Set Nat) (Good : Mem → Prop) (room : Nat) (f : Cpu δ → Cpu δ) : Prop where
  returned : ∀ c, Good c.mem → room ≤ c.regs .esp → c.regs .esp + 4 < 2 ^ 32 → Returned own room c (f c)
  good : ∀ c, Good c.mem → room ≤ c.regs .esp → c.regs .esp + 4 < 2 ^ 32 → Good (f c).mem

/-! ## 5. Interrupts -/

/-- A gate of the interrupt descriptor table. -/
structure Gate where
  offset : Nat
  selector : Nat
  attributes : UInt8

/-- The gate of interrupt `n`, in the table at `base`. -/
def gate (m : Mem) (base n : Nat) : Gate where
  offset := u16 m (base + 8 * n) + 65536 * u16 m (base + 8 * n + 6)
  selector := u16 m (base + 8 * n + 2)
  attributes := m (base + 8 * n + 5)

/-- Through a gate, without a change of privilege.  An interrupt gate shuts out further interrupts. -/
def enter (g : Gate) (c : Cpu δ) : Cpu δ :=
  let d := c.pushWords [c.eflags, c.cs, c.eip]
  { d with eip := g.offset, cs := g.selector, eflags := c.eflags &&& 0xfffffdff }

/-- Interrupt `n`, if its gate is present and an interrupt gate of 32 bits. -/
def deliver (n : Nat) (c : Cpu δ) : Option (Cpu δ) :=
  if 8 * n + 7 ≤ c.control.idtLimit ∧
      (gate c.mem c.control.idtBase n).attributes &&& 0x9F = 0x8E then
    some (enter (gate c.mem c.control.idtBase n) c)
  else none

/-- The machine takes a step, or an interrupt comes in between. -/
inductive Interleaved (M : Machine δ) : Cpu δ → Option Nat → Cpu δ → Prop
  | instr (c : Cpu δ) : Interleaved M c none (M.step c)
  | interrupt {c c' : Cpu δ} {n : Nat} : c.interruptible = true → deliver n c = some c' →
    Interleaved M c (some n) c'

/-- No interrupt can come in. -/
def Closed (c : Cpu δ) : Prop := c.interruptible = false

theorem Closed.of_flag (h : c.interruptFlag = false) : Closed c := by
  rw [Closed, Cpu.interruptible, h, Bool.false_and]

/-- The interrupt that came in at `c` is being served at `c'`: on its frame, the words `ws` have been
pushed. -/
structure Framed (lo : Nat) (own : Set Nat) (c : Cpu δ) (ws : List Nat) (c' : Cpu δ) : Prop where
  stack : OnStack (c.regs .esp) c' (ws ++ [c.eip, c.cs, c.eflags])
  keeps : Keeps lo (c.regs .esp) own c c'
  control : c'.control = c.control

/-- The interrupt that came in at `c` is being served at `c'`, with interrupts shut out. -/
structure InHandler (lo : Nat) (own : Set Nat) (c : Cpu δ) (ws : List Nat) (c' : Cpu δ) : Prop
    extends Framed lo own c ws c' where
  flag : c'.interruptFlag = false

section

variable {lo n : Nat} {own : Set Nat} {ws : List Nat} {v w : Nat} {r : Reg}
  {c' c'' : Cpu δ}

theorem InHandler.closed (h : InHandler lo own c ws c') : Closed c' := .of_flag h.flag

/-- What only sees the stack, memory, the flags and the control registers keeps the frame. -/
theorem InHandler.congr (h : InHandler lo own c ws c') (hmem : c''.mem = c'.mem)
    (hesp : c''.regs .esp = c'.regs .esp) (hflags : c''.eflags = c'.eflags)
    (hcontrol : c''.control = c'.control) : InHandler lo own c ws c'' where
  stack := h.stack.congr hesp fun _ _ _ => by rw [hmem]
  keeps x hx hown := by rw [hmem, h.keeps x hx hown]
  control := hcontrol.trans h.control
  flag := by rw [Cpu.interruptFlag, hflags]; exact h.flag

theorem InHandler.weaken (h : InHandler lo ∅ c ws c') (own : Set Nat) : InHandler lo own c ws c' :=
  ⟨⟨h.stack, fun x hx _ => h.keeps x hx (Set.notMem_empty x), h.control⟩, h.flag⟩

theorem InHandler.advance (h : InHandler lo own c ws c') (next : Nat) :
    InHandler lo own c ws (c'.advance next) := h.congr rfl rfl rfl rfl

theorem InHandler.jump (h : InHandler lo own c ws c') (target : Nat) :
    InHandler lo own c ws (c'.jump target) := h.congr rfl rfl rfl rfl

theorem InHandler.setReg (h : InHandler lo own c ws c') (hr : r ≠ .esp) (v : Nat) :
    InHandler lo own c ws (c'.setReg r v) := h.congr rfl (setReg_of_ne hr.symm ..) rfl rfl

theorem InHandler.pushWords (vs : List Nat) (h : InHandler lo own c ws c')
    (hesp : c.regs .esp < 2 ^ 32) (hvs : ∀ v ∈ vs, v < 2 ^ 32)
    (hroom : lo + 4 * (ws.length + 3 + vs.length) ≤ c.regs .esp) :
    InHandler lo own c (vs.reverse ++ ws) (c'.pushWords vs) ∧
      ∀ r, r ≠ .esp → (c'.pushWords vs).regs r = c'.regs r := by
  obtain ⟨hstack, hkeeps, hregs⟩ := h.stack.pushWords lo hesp hvs own
    (by rw [List.length_append, List.length_cons, List.length_cons, List.length_singleton]; omega)
  exact ⟨⟨⟨by rw [List.append_assoc]; exact hstack, h.keeps.trans hkeeps,
    (pushWords_control ..).trans h.control⟩, by rw [Cpu.interruptFlag, pushWords_eflags]; exact h.flag⟩,
    hregs⟩

theorem InHandler.popReg (h : InHandler lo own c (w :: ws) c') (hc : c.regs .esp < 2 ^ 32)
    (hr : r ≠ .esp) : InHandler lo own c ws (c'.popReg r) ∧ (c'.popReg r).regs r = w ∧
      ∀ q, q ≠ r → q ≠ .esp → (c'.popReg r).regs q = c'.regs q := by
  obtain ⟨hstack, hword, hothers⟩ := h.stack.popReg hc hr
  exact ⟨⟨⟨hstack, h.keeps, h.control⟩, h.flag⟩, hword, hothers⟩

theorem InHandler.popad (f : Reg → Nat) (h : InHandler lo own c ((allRegs.map f).reverse ++ ws) c')
    (hc : c.regs .esp < 2 ^ 32) : InHandler lo own c ws (c'.popRegs allRegs.reverse) ∧
      ∀ r, r ≠ .esp → (c'.popRegs allRegs.reverse).regs r = f r := by
  have hstack := h.stack
  rw [List.append_assoc] at hstack
  obtain ⟨hws, hregs⟩ := hstack.popad f hc
  obtain ⟨hmem, hflags, hcontrol, -, -⟩ := popRegs_rest allRegs.reverse c'
  exact ⟨⟨⟨hws, fun x hx hown => by rw [hmem, h.keeps x hx hown], hcontrol.trans h.control⟩,
    by rw [Cpu.interruptFlag, hflags]; exact h.flag⟩, hregs⟩

/-- A compiled function returns, and leaves the stack above its return address. -/
theorem InHandler.returned {room : Nat} (h : InHandler lo own c (w :: ws) c')
    (hr : Returned own room c' c'') (hroom : lo + room + 4 * (ws.length + 4) ≤ c.regs .esp)
    (hown : ∀ x ∈ own, x < lo ∨ c.regs .esp ≤ x) :
    InHandler lo own c ws c'' ∧ c''.eip = w := by
  have hesp := h.stack.esp
  simp only [List.length_append, List.length_cons, List.length_nil] at hesp
  have hmem : ∀ x, c'.regs .esp + 4 ≤ x → x < c.regs .esp → c''.mem x = c'.mem x := fun x hx hx' =>
    hr.keeps x (.inr hx) fun hx'' => by
      have := hown x hx''
      omega
  refine ⟨⟨⟨⟨?_, fun i hi => ?_⟩, fun x hx hx' => ?_, hr.control.trans h.control⟩,
    hr.interruptFlag.trans h.flag⟩, ?_⟩
  · simp only [hr.esp, List.length_append, List.length_cons, List.length_nil]
    omega
  · have hword := h.stack.words (i + 1) (Nat.succ_lt_succ hi)
    rw [List.length_append, List.length_cons, List.length_cons, List.length_singleton] at hi
    simp only [List.cons_append, List.getElem_cons_succ] at hword
    rw [← hword, hr.esp, show c'.regs .esp + 4 + 4 * i = c'.regs .esp + 4 * (i + 1) by omega]
    exact u32_congr fun x hx hx' => hmem x (by omega) (by omega)
  · rw [hr.keeps x (by omega) hx', h.keeps x hx hx']
  · exact hr.eip.trans (h.stack.words 0 (by simp))

theorem testBit_clear (flags : Nat) : (flags &&& 0xfffffdff).testBit 9 = false := by
  rw [Nat.testBit_and, show Nat.testBit 0xfffffdff 9 = false by decide, Bool.and_false]

theorem InHandler.cli (h : InHandler lo own c ws c') (ports : PortMap δ) :
    InHandler lo own c ws (exec ports .cli c') :=
  ⟨⟨h.stack.congr rfl fun _ _ _ => rfl, h.keeps, h.control⟩, testBit_clear c'.eflags⟩

/-- **An interrupt comes in.** -/
theorem deliver_inHandler (own : Set Nat) (hd : deliver n c = some c') (hc : Sound c)
    (hroom : lo + 12 ≤ c.regs .esp) : InHandler lo own c [] c' ∧
      c'.eip = (gate c.mem c.control.idtBase n).offset ∧
      c'.cs = (gate c.mem c.control.idtBase n).selector ∧ ∀ r, r ≠ .esp → c'.regs r = c.regs r := by
  obtain ⟨-, h⟩ := Option.ite_none_right_eq_some.mp hd
  obtain rfl := Option.some.inj h
  have hvs : ∀ v ∈ [c.eflags, c.cs, c.eip], v < 2 ^ 32 := by
    simpa using ⟨hc.eflags, hc.cs, hc.eip⟩
  obtain ⟨hstack, hkeeps, hregs⟩ := (OnStack.start c).pushWords lo (hc.regs .esp) hvs own
    (by simpa using hroom)
  have hmem : (enter (gate c.mem c.control.idtBase n) c).mem =
      (c.pushWords [c.eflags, c.cs, c.eip]).mem := by simp only [enter]
  refine ⟨⟨⟨hstack.congr rfl fun _ _ _ => by rw [hmem], fun x hx hown => ?_, ?_⟩, ?_⟩, rfl, rfl, hregs⟩
  · rw [hmem, hkeeps x hx hown]
  · exact pushWords_control _ c
  · exact testBit_clear c.eflags

/-- `sti` opens the door behind the next instruction. -/
theorem Framed.sti (h : Framed lo own c ws c') (ports : PortMap δ) :
    Framed lo own c ws (exec ports .sti c') ∧ Closed (exec ports .sti c') :=
  ⟨⟨h.stack.congr rfl fun _ _ _ => rfl, h.keeps, h.control⟩, by
    rw [Closed, Cpu.interruptible]
    exact Bool.and_false _⟩

/-- **Back from an interrupt.** -/
structure Resumed (lo : Nat) (own : Set Nat) (c c' : Cpu δ) : Prop where
  eip : c'.eip = c.eip
  cs : c'.cs = c.cs
  eflags : c'.eflags = c.eflags
  esp : c'.regs .esp = c.regs .esp
  control : c'.control = c.control
  keeps : Keeps lo (c.regs .esp) own c c'

theorem Framed.iret (h : Framed lo own c [] c') (hc : Sound c) (ports : PortMap δ) :
    Resumed lo own c (exec ports .iret c') ∧
      ∀ r, r ≠ .esp → (exec ports .iret c').regs r = c'.regs r := by
  obtain ⟨heip, h1⟩ := h.stack.pop (hc.regs .esp)
  obtain ⟨hcs, h2⟩ := h1.pop (hc.regs .esp)
  obtain ⟨hflags, h3⟩ := h2.pop (hc.regs .esp)
  have hesp := h3.esp
  rw [List.length_nil, Nat.mul_zero, Nat.add_zero] at hesp
  exact ⟨⟨heip, hcs, hflags, hesp, h.control, h.keeps⟩, fun r hr =>
    ((setReg_of_ne hr ..).trans (setReg_of_ne hr ..)).trans (setReg_of_ne hr ..)⟩

end

/-- The interrupts of a run, in the order in which they have come in. -/
def served (tr : List (Cpu δ × Option Nat)) : List Nat := tr.filterMap (·.2)

@[simp] theorem served_instr (tr : List (Cpu δ × Option Nat)) (c : Cpu δ) :
    served (tr ++ [(c, none)]) = served tr := by simp [served]

@[simp] theorem served_interrupt (tr : List (Cpu δ × Option Nat)) (c : Cpu δ) (n : Nat) :
    served (tr ++ [(c, some n)]) = served tr ++ [n] := by simp [served]

/-- **Where the program leads back to, it leads back to however it is interrupted**, if each interrupt
that comes in there leads back with interrupts shut out.  What holds there may depend on the interrupts
so far. -/
theorem Leads.interleaved {I : List Nat → Cpu δ → Prop}
    (hstep : ∀ ns c, I ns c → Leads M Closed (I ns) (M.step c))
    (hinterrupt : ∀ ns c n c', I ns c → c.interruptible = true → deliver n c = some c' →
      Leads M Closed (I (ns ++ [n])) c')
    {c c' : Cpu δ} {tr : List (Cpu δ × Option Nat)} (h : Run (Interleaved M) c tr c')
    (hc : Leads M Closed (I []) c) : Leads M Closed (I (served tr)) c' := by
  induction h with
  | refl => exact hc
  | tail _ hlast ih =>
    cases hlast with
    | instr =>
      rw [served_instr]
      cases ih with
      | here hI => exact hstep _ _ hI
      | next _ hleads => exact hleads
    | interrupt hopen hdeliver =>
      rw [served_interrupt]
      cases ih with
      | here hI => exact hinterrupt _ _ _ _ hI hopen hdeliver
      | next hclosed _ => exact absurd hopen (by rw [hclosed]; decide)

end I386
