/-
# The routines in assembly (`lib/io/io.asm`, `lib/memory/paging.asm`)

Their bodies work on `eax`, `edx`, the ports and the control registers only, so that they return as
their C callers expect: each is a case of the rule for a routine with a frame (`Leads.routine`).

* **Ports.**  `port_routines` joins them to the port functions on which the disk driver is built
  (`DiskPorts`): each makes exactly the one access to the port, on the low halves of its arguments.
* **Paging.**  `paging_routines` says what the two functions do together that turn paging on: the
  processor uses the directory that it was given, whatever comes between the two calls, as long as that
  leaves the control registers alone.
-/
import KokoOs.Lib.I386
import KokoOs.DiskPorts

namespace KokoOs.Routines

open Bytes I386 I386.Cpu Ports

/-! ## 1. The code -/

def insbCode : List Instr := routine [.xor .eax .eax, .load .edx .ebp 8, .inAl]
def inswCode : List Instr := routine [.xor .eax .eax, .load .edx .ebp 8, .inAx]
def outbCode : List Instr := routine [.load .edx .ebp 8, .load .eax .ebp 12, .outAl]
def outwCode : List Instr := routine [.load .edx .ebp 8, .load .eax .ebp 12, .outAx]

/-- `paging_set_global_page_directory`. -/
def setGlobalPageDirectoryCode : List Instr := routine [.load .eax .ebp 8, .writeCr3 .eax]

/-- `paging_enable_paging`. -/
def enablePagingCode : List Instr := routine [.readCr0 .eax, .orImm .eax 0x80000001, .writeCr0 .eax]

/-! ## 2. What they do -/

section

variable {δ : Type} {M : Machine δ} {q : Nat} {c c1 : Cpu δ}

/-- There is room for the frame, and the two arguments are on the stack. -/
structure Called (c : Cpu δ) : Prop where
  room : 4 ≤ c.regs .esp
  args : c.regs .esp + 12 ≤ 2 ^ 32
  ebp : c.regs .ebp < 2 ^ 32

theorem Called.returns {body : List Instr} (h : Called c) (hplain : ∀ i ∈ body, i.Plain)
    (hp : Placed M c.eip (routine body) q) : GetsTo M (fun c' => RoutineReturned c c' ∧ ∃ c1, Entered c c1 ∧
      c'.regs .eax = (execAll M body c1).regs .eax ∧ c'.dev = (execAll M body c1).dev ∧
      c'.control = (execAll M body c1).control) c := by
  have hargs := h.args
  exact Leads.routine hplain hp h.room (by omega) h.ebp

/-- The arguments, in the routine's frame. -/
theorem Called.first (h : Called c) (h1 : Entered c c1) :
    u32 c1.mem ((c1.regs .ebp + 8) % 2 ^ 32) = arg c 0 := by
  have hargs := h.args
  exact h1.arg_eq (k := 0) (by omega)

theorem Called.second (h : Called c) (h1 : Entered c c1) :
    u32 c1.mem ((c1.regs .ebp + 12) % 2 ^ 32) = arg c 1 := by
  have hargs := h.args
  exact h1.arg_eq (k := 1) (by omega)

theorem insb_returns (h : Called c) (hp : Placed M c.eip insbCode q) :
    GetsTo M (fun c' => RoutineReturned c c' ∧
      c'.regs .eax = (M.ports.inb (arg c 0 % 65536) c.dev).1.toNat ∧
      c'.dev = (M.ports.inb (arg c 0 % 65536) c.dev).2) c := by
  refine (h.returns (by decide) hp).mono ?_
  rintro c' ⟨hreturned, c1, h1, heax, hdev, -⟩
  refine ⟨hreturned, ?_, ?_⟩
  · rw [heax, ← h.first h1, ← h1.dev]
    simp [execAll, exec, setResult, setZero, setAl, setReg, advance, dx]
  · rw [hdev, ← h.first h1, ← h1.dev]
    simp [execAll, exec, setResult, setZero, setAl, setReg, advance, dx]

theorem insw_returns (h : Called c) (hp : Placed M c.eip inswCode q) :
    GetsTo M (fun c' => RoutineReturned c c' ∧
      c'.regs .eax = (M.ports.inw (arg c 0 % 65536) c.dev).1 % 65536 ∧
      c'.dev = (M.ports.inw (arg c 0 % 65536) c.dev).2) c := by
  refine (h.returns (by decide) hp).mono ?_
  rintro c' ⟨hreturned, c1, h1, heax, hdev, -⟩
  refine ⟨hreturned, ?_, ?_⟩
  · rw [heax, ← h.first h1, ← h1.dev]
    simp [execAll, exec, setResult, setZero, setAx, setReg, advance, dx]
  · rw [hdev, ← h.first h1, ← h1.dev]
    simp [execAll, exec, setResult, setZero, setAx, setReg, advance, dx]

theorem outb_returns (h : Called c) (hp : Placed M c.eip outbCode q) :
    GetsTo M (fun c' => RoutineReturned c c' ∧
      c'.dev = M.ports.outb (arg c 0 % 65536) (UInt8.ofNat (arg c 1)) c.dev) c := by
  refine (h.returns (by decide) hp).mono ?_
  rintro c' ⟨hreturned, c1, h1, -, hdev, -⟩
  refine ⟨hreturned, ?_⟩
  rw [hdev, ← h.first h1, ← h.second h1, ← h1.dev]
  simp [execAll, exec, setReg, advance, dx, al]

theorem outw_returns (h : Called c) (hp : Placed M c.eip outwCode q) :
    GetsTo M (fun c' => RoutineReturned c c' ∧
      c'.dev = M.ports.outw (arg c 0 % 65536) (arg c 1 % 65536) c.dev) c := by
  refine (h.returns (by decide) hp).mono ?_
  rintro c' ⟨hreturned, c1, h1, -, hdev, -⟩
  refine ⟨hreturned, ?_⟩
  rw [hdev, ← h.first h1, ← h.second h1, ← h1.dev]
  simp [execAll, exec, setReg, advance, dx, ax]

/-- The processor uses the directory that is the argument. -/
theorem setGlobalPageDirectory_returns (h : Called c) (hp : Placed M c.eip setGlobalPageDirectoryCode q) :
    GetsTo M (fun c' => RoutineReturned c c' ∧ c'.dev = c.dev ∧
      c'.control = { c.control with cr3 := arg c 0 }) c := by
  refine (h.returns (by decide) hp).mono ?_
  rintro c' ⟨hreturned, c1, h1, -, hdev, hcontrol⟩
  refine ⟨hreturned, hdev.trans h1.dev, ?_⟩
  rw [hcontrol, ← h.first h1, ← h1.control]
  simp [execAll, exec, setReg, advance]

/-- Paging is turned on. -/
theorem enablePaging_returns (h : Called c) (hp : Placed M c.eip enablePagingCode q) :
    GetsTo M (fun c' => RoutineReturned c c' ∧ c'.dev = c.dev ∧
      c'.control = { c.control with cr0 := c.control.cr0 ||| 0x80000001 }) c := by
  refine (h.returns (by decide) hp).mono ?_
  rintro c' ⟨hreturned, c1, h1, -, hdev, hcontrol⟩
  refine ⟨hreturned, hdev.trans h1.dev, ?_⟩
  rw [hcontrol, ← h1.control]
  simp [execAll, exec, setResult, setZero, setReg, advance]

/-- **Paging is turned on with the directory that was set**: `init_kernel_paging` sets it, and
`kernel_main` turns paging on behind it, whatever comes between the two calls, as long as that leaves
the control registers alone. -/
theorem paging_routines {q' : Nat} (h : Called c) (hp : Placed M c.eip setGlobalPageDirectoryCode q) :
    GetsTo M (fun c' => RoutineReturned c c' ∧ c'.dev = c.dev ∧
      ∀ c1, c1.control = c'.control → Called c1 → Placed M c1.eip enablePagingCode q' →
        GetsTo M (fun c2 => RoutineReturned c1 c2 ∧ c2.dev = c1.dev ∧
          c2.control = { c.control with cr0 := c.control.cr0 ||| 0x80000001, cr3 := arg c 0 }) c1) c := by
  refine (setGlobalPageDirectory_returns h hp).mono ?_
  rintro c' ⟨hreturned, hdev, hcontrol⟩
  refine ⟨hreturned, hdev, fun c1 hsame h1 hp1 => (enablePaging_returns h1 hp1).mono ?_⟩
  rintro c2 ⟨hreturned', hdev', hcontrol'⟩
  refine ⟨hreturned', hdev', ?_⟩
  rw [hcontrol', hsame, hcontrol]

end

/-! ## 3. The port functions of the disk driver -/

section

variable {M : Machine Ports.Ata} {q : Nat} {c : Cpu Ports.Ata}

/-- **The machine code of a port function does what the function of the driver does**: one access to the
port, whose answer is in `eax`, and the caller finds its registers, its stack and its memory as they
were. -/
theorem port_routines (hports : M.ports = Ports.Ata.ports) (h : Called c) :
    (Placed M c.eip insbCode q → GetsTo M (fun c' => RoutineReturned c c' ∧ ∃ v,
      AtPorts.insb (arg c 0 % 65536) ⟨c.mem, c.dev⟩ = .ok v ⟨c.mem, c'.dev⟩ ∧
      c'.regs .eax = v.toNat) c) ∧
    (Placed M c.eip inswCode q → GetsTo M (fun c' => RoutineReturned c c' ∧ ∃ v,
      AtPorts.insw (arg c 0 % 65536) ⟨c.mem, c.dev⟩ = .ok v ⟨c.mem, c'.dev⟩ ∧
      c'.regs .eax = v % 65536) c) ∧
    (Placed M c.eip outbCode q → GetsTo M (fun c' => RoutineReturned c c' ∧
      AtPorts.outb (arg c 0 % 65536) (UInt8.ofNat (arg c 1)) ⟨c.mem, c.dev⟩ =
        .ok () ⟨c.mem, c'.dev⟩) c) ∧
    (Placed M c.eip outwCode q → GetsTo M (fun c' => RoutineReturned c c' ∧
      AtPorts.outw (arg c 0 % 65536) (arg c 1 % 65536) ⟨c.mem, c.dev⟩ = .ok () ⟨c.mem, c'.dev⟩) c) := by
  refine ⟨fun hp => ?_, fun hp => ?_, fun hp => ?_, fun hp => ?_⟩
  · refine (insb_returns h hp).mono fun c' ⟨hreturned, heax, hdev⟩ => ⟨hreturned, _, ?_, heax⟩
    rw [hdev, hports]
    rfl
  · refine (insw_returns h hp).mono fun c' ⟨hreturned, heax, hdev⟩ => ⟨hreturned, _, ?_, heax⟩
    rw [hdev, hports]
    rfl
  · refine (outb_returns h hp).mono fun c' ⟨hreturned, hdev⟩ => ⟨hreturned, ?_⟩
    rw [hdev, hports]
    rfl
  · refine (outw_returns h hp).mono fun c' ⟨hreturned, hdev⟩ => ⟨hreturned, ?_⟩
    rw [hdev, hports]
    rfl

/-- Nothing but `insb`, on a disk that has no sectors. -/
def insbMachine : Machine Ports.Ata where
  ports := Ports.Ata.ports
  code := listing 0x100 insbCode
  size _ := 1
  given _ := none

/-- `insb` has been called, for the status of the disk. -/
def insbCpu : Cpu Ports.Ata where
  regs r := if r = .esp then 0x10000 else 0
  eip := 0x100
  cs := 8
  eflags := 2
  shadow := false
  control := ⟨0, 0, 0, 0⟩
  mem := putU32 (fun _ => 0) 0x10004 0x1F7
  dev := AtPorts.oneSectorAtPorts.device

theorem port_routines_status : GetsTo insbMachine (fun c' => RoutineReturned insbCpu c' ∧ ∃ v,
    AtPorts.insb (arg insbCpu 0 % 65536) ⟨insbCpu.mem, insbCpu.dev⟩ = .ok v ⟨insbCpu.mem, c'.dev⟩ ∧
    c'.regs .eax = v.toNat) insbCpu :=
  (port_routines (q := 0x107) rfl ⟨by decide, by decide, by decide⟩).1 ⟨rfl, rfl, rfl, rfl, rfl, rfl, rfl, rfl,
    rfl, rfl, rfl, rfl, rfl, rfl, rfl⟩

end

end KokoOs.Routines
