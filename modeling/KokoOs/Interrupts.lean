/-
# Interrupts (`idt/idt.asm`, `idt/idt.c`)

The stubs of `idt.asm` put the address of a C function on the stack and jump to `call_interrupt`,
which takes it off again, saves the registers, calls it, brings them back and returns from the
interrupt.  By then `ecx` holds that address, since it is saved too late.  Everything else of the
interrupted program is brought back (`stub_resumes`).

The gate of the keyboard leads to `idt_keyboard` itself.  That function ends in `ret` and not in
`iret`: it goes back to the interrupted instruction, but two words stay on the stack, and interrupts
stay shut out.

* **One interrupt.**  `interrupt_resumes` has both, at any state of a program where there is room for an
  interrupt: the cost is `ecx`, or two words of stack and all further interrupts.
* **The idle kernel.**  `idle_interrupted` is about the loop in which `_start` ends up, for every
  order in which interrupts come in at its instructions and at those of the stubs: any number of
  interrupts other than the keyboard's leave it where it is, and the first key is the last interrupt
  of all.

The C functions are given by what they do behind the ports and by the calling convention; what they
print is left out.
-/
import KokoOs.InterruptTable

namespace KokoOs.Interrupts

open Bytes I386 I386.Cpu Ports
open Runs (Run)

variable {δ : Type}

/-! ## 1. The stubs -/

/-- `idt_acknowledge_interrupt`, on what is behind the ports. -/
def idtAcknowledgeInterrupt (ports : PortMap δ) (dev : δ) : δ := ports.outb 0x20 0x20 dev

/-- What the C functions of the gates do behind the ports: `idt_zero` prints a line only. -/
def idtNull (ports : PortMap δ) (dev : δ) : δ := idtAcknowledgeInterrupt ports dev
def idtZero (_ports : PortMap δ) (dev : δ) : δ := dev
def idtKeyboard (ports : PortMap δ) (dev : δ) : δ := idtAcknowledgeInterrupt ports dev

/-- `call_interrupt`. -/
def callInterruptCode : List Instr := [.cli, .pop .ecx, .pushad, .callReg .ecx, .popad, .sti, .iret]

/-- A stub, for one of the C functions. -/
def stubCode (y : Symbols) (function : Nat) : List Instr :=
  [.movImm .ecx function, .push .ecx, .jmp y.callInterrupt]

def idtZeroInterruptCode (y : Symbols) : List Instr := stubCode y y.idtZero
def idtNullInterruptCode (y : Symbols) : List Instr := stubCode y y.idtNull

/-- A C function is at its address. -/
def Compiled (M : Machine δ) (own : Set Nat) (Good : Mem → Prop) (room address : Nat)
    (effect : PortMap δ → δ → δ) : Prop :=
  ∃ f, M.given address = some f ∧ Cdecl own Good room f ∧ ∀ c, (f c).dev = effect M.ports c.dev

/-- The bytes of the stack that an interrupt needs besides those of its C function. -/
abbrev stubRoom : Nat := 48

section

variable {M : Machine δ} {y : Symbols} {own : Set Nat} {Good : Mem → Prop} {room lo function p q q' : Nat}
  {effect : PortMap δ → δ → δ} {c d : Cpu δ}

/-- The interrupted program goes on: only `ecx` is changed, and what the C function did. -/
structure StubResumed (M : Machine δ) (own : Set Nat) (Good : Mem → Prop) (lo function : Nat)
    (effect : PortMap δ → δ → δ) (c c' : Cpu δ) : Prop extends Resumed lo own c c' where
  regs : ∀ r, r ≠ .ecx → c'.regs r = c.regs r
  ecx : c'.regs .ecx = function
  shadow : c'.shadow = false
  dev : c'.dev = effect M.ports c.dev
  good : Good c'.mem

/-- The stub up to `call_interrupt`: the function's address is on the stack. -/
theorem stub_pushes (hstub : Placed M p (stubCode y function) q) (hfunction : function < 2 ^ 32)
    (hc : c.regs .esp < 2 ^ 32) (hlo : lo + 16 ≤ c.regs .esp) (hd : InHandler lo own c [] d)
    (heip : d.eip = p) {Q : Cpu δ → Prop} (hnext : ∀ e, InHandler lo own c [function] e →
      e.eip = y.callInterrupt → (∀ r, r ≠ .esp → r ≠ .ecx → e.regs r = d.regs r) → e.dev = d.dev →
      Leads M Closed Q e) : Leads M Closed Q d := by
  refine Leads.instr hstub heip hd.closed fun hstub => ?_
  obtain ⟨d1, hd1⟩ : ∃ d1, d1 = (d.advance (p + M.size (.movImm .ecx function))).setReg .ecx function :=
    ⟨_, rfl⟩
  have h1 : InHandler lo own c [] d1 := by
    rw [hd1]
    exact (hd.advance _).setReg (by decide) _
  have hecx : d1.regs .ecx = function := by rw [hd1, setReg_self]
  have hregs1 : ∀ r, r ≠ .ecx → d1.regs r = d.regs r := fun r hr => by rw [hd1, setReg_of_ne hr]; rfl
  simp only [exec, ← hd1]
  refine Leads.instr hstub (by rw [hd1]; rfl) h1.closed fun hstub => ?_
  obtain ⟨d2, hd2⟩ : ∃ d2, d2 = d1.advance (p + M.size (.movImm .ecx function) + M.size (.push .ecx)) :=
    ⟨_, rfl⟩
  have h2 : InHandler lo own c [] d2 := by
    rw [hd2]
    exact h1.advance _
  have hregs2 : d2.regs = d1.regs := by rw [hd2]; rfl
  obtain ⟨h3, hregs3⟩ := h2.pushWords [function] hc (by simpa using hfunction) (by simpa using hlo)
  obtain ⟨d3, hd3⟩ : ∃ d3, d3 = d2.pushWords [function] := ⟨_, rfl⟩
  rw [← hd3] at h3 hregs3
  have hpush : d2.pushWord (d2.regs .ecx) = d3 := by rw [hregs2, hecx, hd3]; rfl
  simp only [exec, ← hd2, hpush]
  refine Leads.instr hstub (by rw [hd3, hd2]; rfl) h3.closed fun _ => ?_
  refine hnext _ ((h3.advance _).jump _) rfl (fun r hr hr' => ?_) ?_
  · exact (hregs3 r hr).trans (by rw [hregs2, hregs1 r hr'])
  · change d3.dev = d.dev
    rw [hd3, hd2, hd1]
    rfl

/-- `call_interrupt` takes the address of the function off the stack. -/
theorem call_takes (hcall : Placed M y.callInterrupt callInterruptCode q') (hc : Sound c)
    (hd : InHandler lo own c [function] d) (heip : d.eip = y.callInterrupt) {Q : Cpu δ → Prop}
    (hnext : ∀ e, InHandler lo own c [] e → e.regs .ecx = function →
      (∀ r, r ≠ .ecx → r ≠ .esp → e.regs r = d.regs r) → e.dev = d.dev →
      Placed M e.eip [.pushad, .callReg .ecx, .popad, .sti, .iret] q' → Leads M Closed Q e) :
    Leads M Closed Q d := by
  refine Leads.instr hcall heip hd.closed fun hcall => ?_
  obtain ⟨e1, he1⟩ : ∃ e1, e1 = exec M.ports .cli (d.advance (y.callInterrupt + M.size .cli)) := ⟨_, rfl⟩
  have h1 : InHandler lo own c [function] e1 := by
    rw [he1]
    exact (hd.advance _).cli M.ports
  have hregs1 : e1.regs = d.regs := by rw [he1]; rfl
  have heip1 : e1.eip = y.callInterrupt + M.size .cli := by rw [he1]; rfl
  rw [← he1]
  refine Leads.instr hcall heip1 h1.closed fun hcall => ?_
  rw [← heip1] at hcall ⊢
  obtain ⟨h2, hecx, hothers⟩ := (h1.advance (e1.eip + M.size (.pop .ecx))).popReg (hc.regs .esp)
    (show Reg.ecx ≠ .esp by decide)
  obtain ⟨e2, he2⟩ : ∃ e2, e2 = (e1.advance (e1.eip + M.size (.pop .ecx))).popReg .ecx := ⟨_, rfl⟩
  have heip2 : e2.eip = e1.eip + M.size (.pop .ecx) := by rw [he2]; rfl
  simp only [exec]
  rw [← he2] at h2 hecx hothers ⊢
  rw [← heip2] at hcall
  refine hnext e2 h2 hecx (fun r hr hr' => (hothers r hr hr').trans (congrFun hregs1 r)) ?_ hcall
  rw [he2, he1]
  rfl

/-- `call_interrupt`, up to the call: the registers are on the stack. -/
theorem call_saves (hcall : Placed M y.callInterrupt callInterruptCode q') (hq' : q' < 2 ^ 32) (hc : Sound c)
    (hlo : lo + stubRoom ≤ c.regs .esp) (hfunction : function < 2 ^ 32)
    (hd : InHandler lo own c [function] d) (heip : d.eip = y.callInterrupt)
    (hregs : ∀ r, r ≠ .esp → r ≠ .ecx → d.regs r = c.regs r) {Q : Cpu δ → Prop}
    (hnext : ∀ e back f, (∀ r, r ≠ .esp → f r = if r = .ecx then function else c.regs r) →
      InHandler lo own c (back :: (allRegs.map f).reverse) e → e.eip = function →
      Placed M back [.popad, .sti, .iret] q' → e.dev = d.dev → Leads M Closed Q e) :
    Leads M Closed Q d := by
  refine call_takes hcall hc hd heip fun e2 h2 hecx hothers hdev2 hcall => ?_
  refine Leads.instr hcall rfl h2.closed fun hcall => ?_
  obtain ⟨e3, he3⟩ : ∃ e3, e3 = e2.advance (e2.eip + M.size .pushad) := ⟨_, rfl⟩
  have h3 : InHandler lo own c [] e3 := by
    rw [he3]
    exact h2.advance _
  have hregs3 : ∀ r, r ≠ .esp → e3.regs r = if r = .ecx then function else c.regs r := by
    intro r hr
    have h32 : e3.regs r = e2.regs r := by rw [he3]; rfl
    rw [h32]
    by_cases hr' : r = .ecx
    · rw [if_pos hr', hr', hecx]
    · rw [if_neg hr', hothers r hr' hr, hregs r hr hr']
  have hesp3 := h3.stack.esp
  simp only [List.nil_append, List.length_cons, List.length_nil] at hesp3
  have hesp := hc.regs .esp
  have hsaved : ∀ v ∈ allRegs.map e3.regs, v < 2 ^ 32 := by
    intro v hv
    obtain ⟨r, -, rfl⟩ := List.mem_map.mp hv
    by_cases hr : r = .esp
    · rw [hr]
      omega
    · rw [hregs3 r hr]
      split
      · exact hfunction
      · exact hc.regs r
  have hlen : (allRegs.map e3.regs).length = 8 := by rw [List.length_map]; rfl
  have hroom : lo + 48 ≤ c.regs .esp := hlo
  obtain ⟨h4, hregs4⟩ := h3.pushWords (allRegs.map e3.regs) (hc.regs .esp) hsaved
    (by rw [hlen, List.length_nil]; omega)
  obtain ⟨e4, he4⟩ : ∃ e4, e4 = e3.pushWords (allRegs.map e3.regs) := ⟨_, rfl⟩
  have heip4 : e4.eip = e2.eip + M.size .pushad := by rw [he4, pushWords_eip, he3]; rfl
  have hdev4 : e4.dev = d.dev := by
    rw [he4, pushWords_dev, he3]
    exact hdev2
  rw [List.append_nil, ← he4] at h4
  rw [← he4] at hregs4
  simp only [exec]
  rw [← he3, ← he4]
  refine Leads.instr hcall heip4 h4.closed fun hcall => ?_
  rw [← heip4] at hcall ⊢
  obtain ⟨e5, he5⟩ : ∃ e5, e5 = e4.advance (e4.eip + M.size (.callReg .ecx)) := ⟨_, rfl⟩
  have h5 : InHandler lo own c (allRegs.map e3.regs).reverse e5 := by
    rw [he5]
    exact h4.advance _
  have heip5 : e5.eip = e4.eip + M.size (.callReg .ecx) := by rw [he5]; rfl
  have hback : e5.eip < 2 ^ 32 := heip5 ▸ lt_of_le_of_lt (Placed.le hcall) hq'
  obtain ⟨h6, -⟩ := h5.pushWords [e5.eip] (hc.regs .esp) (by simpa using hback)
    (by rw [List.length_reverse, hlen, List.length_singleton]; omega)
  simp only [exec]
  rw [← he5]
  refine hnext _ e5.eip e3.regs hregs3 (h6.jump _) ?_ (heip5 ▸ hcall) ?_
  · have hecx5 : e5.regs .ecx = e4.regs .ecx := by rw [he5]; rfl
    exact hecx5.trans ((hregs4 .ecx (by decide)).trans ((hregs3 .ecx (by decide)).trans (if_pos rfl)))
  · exact (pushWords_dev [e5.eip] e5).trans (by rw [he5]; exact hdev4)

/-- The function has been called, and `call_interrupt` goes back to the interrupted program. -/
theorem call_returns {back : Nat} {f : Reg → Nat} (hcode : Placed M back [.popad, .sti, .iret] q')
    (hf : Compiled M own Good room function effect) (hc : Sound c) (hgood : Good d.mem)
    (hlo : lo + room + stubRoom ≤ c.regs .esp) (hown : ∀ x ∈ own, x < lo ∨ c.regs .esp ≤ x)
    (hd : InHandler lo own c (back :: (allRegs.map f).reverse) d) (heip : d.eip = function)
    (hdev : d.dev = c.dev) : Leads M Closed (fun c' => Resumed lo own c c' ∧
      (∀ r, r ≠ .esp → c'.regs r = f r) ∧ c'.shadow = false ∧ c'.dev = effect M.ports c.dev ∧
      Good c'.mem) d := by
  obtain ⟨g, hgiven, hcdecl, heffect⟩ := hf
  have hesp := hd.stack.esp
  have hesp0 := hc.regs .esp
  have hroom : lo + room + 48 ≤ c.regs .esp := hlo
  have hlen : (allRegs.map f).length = 8 := by rw [List.length_map]; rfl
  simp only [List.length_append, List.length_cons, List.length_nil, List.length_reverse, hlen] at hesp
  have hreturned := hcdecl.returned d hgood (by omega) (by omega)
  refine Leads.given (by rw [heip, hgiven]) hd.closed ?_
  obtain ⟨h1, heip1⟩ := hd.returned hreturned (by rw [List.length_reverse, hlen]; omega) hown
  obtain ⟨e1, he1⟩ : ∃ e1, e1 = { g d with shadow := false } := ⟨_, rfl⟩
  have hmem1 : e1.mem = (g d).mem := by rw [he1]
  have h1' : InHandler lo own c (allRegs.map f).reverse e1 := by
    rw [he1]
    exact h1.congr rfl rfl rfl rfl
  rw [← he1]
  refine Leads.instr hcode (by rw [he1]; exact heip1) h1'.closed fun hcode => ?_
  have hframe : InHandler lo own c ((allRegs.map f).reverse ++ []) (e1.advance (back + M.size .popad)) := by
    rw [List.append_nil]
    exact h1'.advance _
  obtain ⟨h2, hregs2⟩ := hframe.popad f hesp0
  obtain ⟨hmem2, -, -, heip2, hdev2⟩ := popRegs_rest allRegs.reverse (e1.advance (back + M.size .popad))
  obtain ⟨e2, he2⟩ : ∃ e2, e2 = (e1.advance (back + M.size .popad)).popRegs allRegs.reverse := ⟨_, rfl⟩
  simp only [exec]
  rw [← he2] at h2 hregs2 hmem2 heip2 hdev2 ⊢
  refine Leads.instr hcode heip2 h2.closed fun hcode => ?_
  obtain ⟨h3, hclosed⟩ := (h2.advance (back + M.size .popad + M.size .sti)).toFramed.sti M.ports
  obtain ⟨e3, he3⟩ : ∃ e3, e3 = exec M.ports .sti (e2.advance (back + M.size .popad + M.size .sti)) :=
    ⟨_, rfl⟩
  rw [← he3] at h3 hclosed ⊢
  refine Leads.instr hcode (by rw [he3]; rfl) hclosed fun _ => .here ?_
  have h4 : Framed lo own c [] (e3.advance (back + M.size .popad + M.size .sti + M.size .iret)) :=
    ⟨h3.stack.advance _, h3.keeps, h3.control⟩
  obtain ⟨hresumed, hregs4⟩ := h4.iret hc M.ports
  have hmem : e3.mem = (g d).mem := by rw [he3, ← hmem1]; exact hmem2
  have hdev3 : e3.dev = effect M.ports c.dev := by
    rw [he3, ← hdev, ← heffect]
    exact hdev2.trans (by rw [he1]; rfl)
  refine ⟨hresumed, fun r hr => (hregs4 r hr).trans ?_, rfl, hdev3, ?_⟩
  · rw [← hregs2 r hr, he3]
    rfl
  · change Good e3.mem
    rw [hmem]
    exact hcdecl.good d hgood (by omega) (by omega)

/-- **A stub gives everything back but `ecx`.** -/
theorem stub_resumes (hstub : Placed M p (stubCode y function) q)
    (hcall : Placed M y.callInterrupt callInterruptCode q') (hq' : q' < 2 ^ 32) (hfunction : function < 2 ^ 32)
    (hf : Compiled M own Good room function effect) (hc : Sound c) (hgood : Good c.mem)
    (hcongr : ∀ m m' : Mem, (∀ x ∈ own, m' x = m x) → Good m → Good m')
    (hlo : lo + room + stubRoom ≤ c.regs .esp) (hown : ∀ x ∈ own, x < lo ∨ c.regs .esp ≤ x)
    (hd : InHandler lo ∅ c [] d) (heip : d.eip = p) (hregs : ∀ r, r ≠ .esp → d.regs r = c.regs r)
    (hdev : d.dev = c.dev) :
    Leads M Closed (StubResumed M own Good lo function effect c) d := by
  have hroom : lo + room + 48 ≤ c.regs .esp := hlo
  refine stub_pushes hstub hfunction (hc.regs .esp) (by omega) hd heip fun e he heip hregs' hdev' => ?_
  refine call_saves hcall hq' hc (by omega) hfunction he heip (fun r hr hr' =>
    (hregs' r hr hr').trans (hregs r hr)) fun e2 back f hf' he2 heip2 hback hdev2 => ?_
  have hgood2 : Good e2.mem := by
    -- nothing but the window of the stack has been written to yet
    refine hcongr c.mem e2.mem (fun x hx => he2.keeps x (hown x hx) (Set.notMem_empty x)) hgood
  refine (call_returns hback hf hc hgood2 hlo hown (he2.weaken own) heip2 (by rw [hdev2, hdev', hdev])).mono ?_
  rintro c' ⟨hresumed, hregs', hshadow, hdev', hgood'⟩
  refine ⟨hresumed, fun r hr => ?_, ?_, hshadow, hdev', hgood'⟩
  · by_cases hr' : r = .esp
    · rw [hr', hresumed.esp]
    · rw [hregs' r hr', hf' r hr', if_neg hr]
  · rw [hregs' _ (by decide), hf' _ (by decide), if_pos rfl]

end

/-! ## 2. One interrupt -/

/-- The code of `idt.asm` and the C functions of the gates are in place. -/
structure Handlers (M : Machine δ) (y : Symbols) (own : Set Nat) (Good : Mem → Prop) (room : Nat) :
    Prop where
  callInterrupt : ∃ q, q < 2 ^ 32 ∧ Placed M y.callInterrupt callInterruptCode q
  zeroInterrupt : ∃ q, Placed M y.idtZeroInterrupt (idtZeroInterruptCode y) q
  nullInterrupt : ∃ q, Placed M y.idtNullInterrupt (idtNullInterruptCode y) q
  zero : y.idtZero < 2 ^ 32 ∧ Compiled M own Good room y.idtZero idtZero
  null : y.idtNull < 2 ^ 32 ∧ Compiled M own Good room y.idtNull idtNull
  keyboard : Compiled M own Good room y.idtKeyboard idtKeyboard
  congr : ∀ m m' : Mem, (∀ x ∈ own, m' x = m x) → Good m → Good m'

/-- An interrupt may come in: there is room on the stack, which is apart from the tables and from what the
C functions own. -/
structure Ready (y : Symbols) (own : Set Nat) (Good : Mem → Prop) (room lo : Nat) (c : Cpu δ) : Prop where
  sound : Sound c
  good : Good c.mem
  table : TableLoaded y c
  stack : lo + room + stubRoom ≤ c.regs .esp
  apart : ∀ x ∈ own, x < lo ∨ c.regs .esp ≤ x
  untouched : Untouched y lo (c.regs .esp) own

/-- What an interrupt does behind the ports. -/
def effect (n : Nat) : PortMap δ → δ → δ :=
  if n = keyboardInterrupt then idtKeyboard else if n = 0 then idtZero else idtNull

/-- The function of a stub. -/
def function (y : Symbols) (n : Nat) : Nat := if n = 0 then y.idtZero else y.idtNull

/-- After the keyboard's interrupt: two words have stayed on the stack, and no interrupt comes in. -/
structure KeyResumed (M : Machine δ) (own : Set Nat) (Good : Mem → Prop) (lo : Nat) (c c' : Cpu δ) :
    Prop where
  eip : c'.eip = c.eip
  cs : c'.cs = kernelCodeSelector
  esp : c'.regs .esp + 8 = c.regs .esp
  flag : c'.interruptFlag = false
  saved : ∀ r, r = .ebx ∨ r = .ebp ∨ r = .esi ∨ r = .edi → c'.regs r = c.regs r
  control : c'.control = c.control
  keeps : Keeps lo (c.regs .esp) own c c'
  dev : c'.dev = idtKeyboard M.ports c.dev
  good : Good c'.mem

section

variable {M : Machine δ} {y : Symbols} {own : Set Nat} {Good : Mem → Prop} {room lo n : Nat}
  {c d : Cpu δ}

/-- An interrupt of the table comes in. -/
theorem Ready.entered (h : Ready y own Good room lo c) (hd : deliver n c = some d) :
    n < kernelTotalInterrupts ∧ InHandler lo ∅ c [] d ∧ d.eip = handler y n ∧ d.cs = kernelCodeSelector ∧
      (∀ r, r ≠ .esp → d.regs r = c.regs r) ∧ d.dev = c.dev := by
  have hroom : lo + room + 48 ≤ c.regs .esp := h.stack
  obtain ⟨hin, heip, hcs, hregs⟩ := deliver_inHandler ∅ hd h.sound
    (show lo + 12 ≤ _ by omega)
  rw [h.table.deliver_eq] at hd
  obtain ⟨hn, hd⟩ := Option.ite_none_right_eq_some.mp hd
  obtain rfl := Option.some.inj hd
  rw [h.table.base, h.table.gates n hn] at heip hcs
  exact ⟨hn, hin, heip, hcs, hregs, pushWords_dev _ c⟩

/-- **An interrupt other than the keyboard's** leaves everything as it was but `ecx`. -/
theorem other_resumes (hM : Handlers M y own Good room) (h : Ready y own Good room lo c)
    (hd : deliver n c = some d) (hn : n ≠ keyboardInterrupt) :
    Leads M Closed (StubResumed M own Good lo (function y n) (effect n) c) d := by
  obtain ⟨-, hin, heip, -, hregs, hdev⟩ := h.entered hd
  obtain ⟨q', hq', hcall⟩ := hM.callInterrupt
  rw [handler, if_neg hn] at heip
  rw [function, effect, if_neg hn]
  by_cases h0 : n = 0
  · rw [if_pos h0] at heip ⊢
    rw [if_pos h0]
    obtain ⟨q, hstub⟩ := hM.zeroInterrupt
    exact stub_resumes hstub hcall hq' hM.zero.1 hM.zero.2 h.sound h.good hM.congr h.stack h.apart hin heip
      hregs hdev
  · rw [if_neg h0] at heip ⊢
    rw [if_neg h0]
    obtain ⟨q, hstub⟩ := hM.nullInterrupt
    exact stub_resumes hstub hcall hq' hM.null.1 hM.null.2 h.sound h.good hM.congr h.stack h.apart hin heip
      hregs hdev

/-- **The keyboard's interrupt** goes back by `ret`. -/
theorem key_resumes (hM : Handlers M y own Good room) (h : Ready y own Good room lo c)
    (hd : deliver keyboardInterrupt c = some d) : Leads M Closed (KeyResumed M own Good lo c) d := by
  obtain ⟨-, hin, heip, hcs, hregs, hdev⟩ := h.entered hd
  obtain ⟨f, hgiven, hcdecl, heffect⟩ := hM.keyboard
  have hesp := hin.stack.esp
  have hesp0 := h.sound.regs .esp
  have hroom : lo + room + 48 ≤ c.regs .esp := h.stack
  simp only [List.nil_append, List.length_cons, List.length_nil] at hesp
  have hgood : Good d.mem :=
    hM.congr c.mem d.mem (fun x hx => hin.keeps x (h.apart x hx) (Set.notMem_empty x)) h.good
  have hreturned := hcdecl.returned d hgood (by omega) (by omega)
  refine Leads.given (by rw [heip, handler, if_pos rfl, hgiven]) hin.closed (.here ?_)
  have htop : d.topWord = c.eip := hin.stack.words 0 (by simp)
  exact {
    eip := hreturned.eip.trans htop
    cs := hreturned.cs.trans hcs
    esp := by
      change (f d).regs .esp + 8 = _
      rw [hreturned.esp]
      omega
    flag := hreturned.interruptFlag.trans hin.flag
    saved := fun r hr => (hreturned.saved r hr).trans (hregs r (by rcases hr with h | h | h | h <;> simp [h]))
    control := hreturned.control.trans hin.control
    keeps := fun x hx hx' => by
      rw [← hin.keeps x hx (Set.notMem_empty x)]
      exact hreturned.keeps x (by omega) hx'
    dev := (heffect d).trans (by rw [hdev])
    good := hcdecl.good d hgood (by omega) (by omega) }

/-- **One interrupt**, at any state of the program where there is room for it: one other than the
keyboard's costs the program its `ecx` only, and the keyboard's costs it two words of stack and all
further interrupts. -/
theorem interrupt_resumes (hM : Handlers M y own Good room) (h : Ready y own Good room lo c)
    (hd : deliver n c = some d) :
    (n ≠ keyboardInterrupt → Leads M Closed (StubResumed M own Good lo (function y n) (effect n) c) d) ∧
    (n = keyboardInterrupt → Leads M Closed (KeyResumed M own Good lo c) d) :=
  ⟨other_resumes hM h hd, fun hn => key_resumes hM h (hn ▸ hd)⟩

/-- Another interrupt may come in behind one that has been resumed. -/
theorem StubResumed.ready {f : Nat} {e : PortMap δ → δ → δ} {c' : Cpu δ}
    (h : StubResumed M own Good lo f e c c') (hf : f < 2 ^ 32) (hc : Ready y own Good room lo c) :
    Ready y own Good room lo c' where
  sound := {
    regs := fun r => by
      by_cases hr : r = .ecx
      · rw [hr, h.ecx]
        exact hf
      · rw [h.regs r hr]
        exact hc.sound.regs r
    eip := h.eip ▸ hc.sound.eip
    cs := h.cs ▸ hc.sound.cs
    eflags := h.eflags ▸ hc.sound.eflags }
  good := h.good
  table := hc.table.keeps hc.untouched h.control h.keeps
  stack := h.esp ▸ hc.stack
  apart := h.esp ▸ hc.apart
  untouched := h.esp ▸ hc.untouched

end

/-! ## 3. The loop at the end of `_start` -/

/-- What the interrupts `ns` do behind the ports. -/
def effects (ports : PortMap δ) (ns : List Nat) (dev : δ) : δ := ns.foldl (fun dev n => effect n ports dev) dev

theorem effects_snoc (ports : PortMap δ) (ns : List Nat) (n : Nat) (dev : δ) :
    effects ports (ns ++ [n]) dev = effect n ports (effects ports ns dev) := by
  simp [effects]

/-- The loop is at its jump, as it was when it was entered at `c`. -/
structure Waiting (M : Machine δ) (y : Symbols) (own : Set Nat) (Good : Mem → Prop) (room lo : Nat)
    (c : Cpu δ) (ns : List Nat) (c' : Cpu δ) : Prop extends Ready y own Good room lo c' where
  eip : c'.eip = c.eip
  cs : c'.cs = c.cs
  eflags : c'.eflags = c.eflags
  regs : ∀ r, r ≠ .ecx → c'.regs r = c.regs r
  keeps : Keeps lo (c.regs .esp) own c c'
  dev : c'.dev = effects M.ports ns c.dev

/-- The loop is at its jump, but deaf. -/
structure Deaf (M : Machine δ) (c : Cpu δ) (ns : List Nat) (c' : Cpu δ) : Prop where
  eip : c'.eip = c.eip
  esp : c'.regs .esp + 8 = c.regs .esp
  flag : c'.interruptFlag = false
  dev : c'.dev = effects M.ports ns c.dev

/-- The loop is at its jump, after the interrupts `ns`: until the first key, it waits. -/
def Idle (M : Machine δ) (y : Symbols) (own : Set Nat) (Good : Mem → Prop) (room lo : Nat) (c : Cpu δ)
    (ns : List Nat) (c' : Cpu δ) : Prop :=
  (keyboardInterrupt ∉ ns ∧ Waiting M y own Good room lo c ns c') ∨
    ∃ earlier, keyboardInterrupt ∉ earlier ∧ ns = earlier ++ [keyboardInterrupt] ∧ Deaf M c ns c'

section

variable {M : Machine δ} {y : Symbols} {own : Set Nat} {Good : Mem → Prop} {room lo n : Nat}
  {ns : List Nat} {c c' d : Cpu δ} {tr : List (Cpu δ × Option Nat)}

/-- The jump itself changes nothing. -/
theorem Idle.step (hcode : M.code c.eip = some (.jmp c.eip)) (hgiven : M.given c.eip = none)
    (h : Idle M y own Good room lo c ns d) : Idle M y own Good room lo c ns (M.step d) := by
  have hstep : d.eip = c.eip → M.step d = (d.advance (c.eip + M.size (.jmp c.eip))).jump c.eip := by
    intro heip
    rw [Machine.step, heip, hgiven, hcode]
    rfl
  rcases h with ⟨hns, h⟩ | ⟨earlier, hns, heq, h⟩
  · rw [hstep h.eip]
    refine .inl ⟨hns, ⟨⟨⟨h.sound.regs, ?_, h.sound.cs, h.sound.eflags⟩, h.good,
      ⟨h.table.limit, h.table.base, h.table.gates⟩, h.stack, h.apart, h.untouched⟩, rfl, h.cs, h.eflags,
      h.regs, h.keeps, h.dev⟩⟩
    rw [← h.eip]
    exact h.sound.eip
  · rw [hstep h.eip]
    exact .inr ⟨earlier, hns, heq, ⟨rfl, h.esp, h.flag, h.dev⟩⟩

/-- An interrupt that comes in at the jump leads back to it. -/
theorem Idle.interrupt (hM : Handlers M y own Good room) (h : Idle M y own Good room lo c ns d)
    (hopen : d.interruptible = true) (hd : deliver n d = some c') :
    Leads M Closed (Idle M y own Good room lo c (ns ++ [n])) c' := by
  rcases h with ⟨hns, h⟩ | ⟨earlier, hns, heq, h⟩
  case inr =>
    -- deaf
    exact absurd hopen (by rw [Closed.of_flag h.flag]; decide)
  have hesp : d.regs .esp = c.regs .esp := h.regs .esp (by decide)
  by_cases hn : n = keyboardInterrupt
  · subst hn
    refine (key_resumes hM h.toReady hd).mono fun e he => .inr ⟨ns, hns, rfl, ?_⟩
    exact ⟨he.eip.trans h.eip, he.esp.trans hesp, he.flag, by
      rw [effects_snoc, ← h.dev, effect, if_pos rfl, he.dev]⟩
  · refine (other_resumes hM h.toReady hd hn).mono fun e he => .inl ⟨?_, ?_⟩
    · rw [List.mem_append, List.mem_singleton, not_or]
      exact ⟨hns, fun h => hn h.symm⟩
    · have hfunction : function y n < 2 ^ 32 := by
        unfold function
        split
        · exact hM.zero.1
        · exact hM.null.1
      exact {
        toReady := he.ready hfunction h.toReady
        eip := he.eip.trans h.eip
        cs := he.cs.trans h.cs
        eflags := he.eflags.trans h.eflags
        regs := fun r hr => (he.regs r hr).trans (h.regs r hr)
        keeps := h.keeps.trans (hesp ▸ he.keeps)
        dev := by rw [effects_snoc, ← h.dev, he.dev] }

/-- **The idle kernel, interrupted at any time**: from every state of the run, with no further interrupt,
it is back at its jump.  Until the first key the stack, the flags and all registers but `ecx` are then
what they were, and each interrupt has been acknowledged as its function does.  The first key is the last
interrupt of the run. -/
theorem idle_interrupted (hM : Handlers M y own Good room) (hc : Ready y own Good room lo c)
    (hcode : M.code c.eip = some (.jmp c.eip)) (hgiven : M.given c.eip = none)
    (h : Run (Interleaved M) c tr c') :
    Leads M Closed (Idle M y own Good room lo c (served tr)) c' := by
  refine Leads.interleaved (fun ns d hd => .here (hd.step hcode hgiven))
    (fun ns d n e hd hopen hdeliver => hd.interrupt hM hopen hdeliver) h (.here (.inl ⟨?_, ?_⟩))
  · exact List.not_mem_nil
  · exact ⟨hc, rfl, rfl, rfl, fun _ _ => rfl, fun _ _ _ => rfl, rfl⟩

end

/-! The kernel of its own, idle. -/

section

/-- A function that does what it does behind the ports, and returns. -/
def returning {δ : Type} (effect : PortMap δ → δ → δ) (ports : PortMap δ) (c : Cpu δ) : Cpu δ :=
  { exec ports .ret c with dev := effect ports c.dev }

def loneMachine : Machine (List (Nat × UInt8)) where
  ports := lonePorts
  code a := (listing 0x100 idtLoadCode a).or ((listing 0x200 callInterruptCode a).or
    ((listing 0x300 (idtZeroInterruptCode loneSymbols) a).or
    ((listing 0x320 (idtNullInterruptCode loneSymbols) a).or (listing 0x500 [.jmp 0x500] a))))
  size _ := 1
  given a := if a = 0x400 then some (returning idtZero lonePorts)
    else if a = 0x410 then some (returning idtKeyboard lonePorts)
    else if a = 0x420 then some (returning idtNull lonePorts) else none

theorem returning_compiled {M : Machine (List (Nat × UInt8))} {address : Nat}
    {effect : PortMap (List (Nat × UInt8)) → List (Nat × UInt8) → List (Nat × UInt8)}
    (h : M.given address = some (returning effect M.ports)) :
    Compiled M ∅ (fun _ => True) 0 address effect := by
  refine ⟨_, h, ⟨fun c _ _ hesp => ?_, fun _ _ _ _ => trivial⟩, fun _ => rfl⟩
  have hregs : ∀ r, r ≠ .esp → (returning effect M.ports c).regs r = c.regs r := fun r hr =>
    setReg_of_ne hr ..
  refine ⟨rfl, ?_, fun r hr => hregs r (by rcases hr with rfl | rfl | rfl | rfl <;> decide), rfl, rfl, rfl,
    fun _ _ _ => rfl⟩
  refine (setReg_self .esp _ c).trans (Nat.mod_eq_of_lt hesp)

theorem lone_handlers : Handlers loneMachine loneSymbols ∅ (fun _ => True) 0 where
  callInterrupt := ⟨0x207, by decide, ⟨rfl, rfl, rfl, rfl, rfl, rfl, rfl, rfl, rfl, rfl, rfl, rfl, rfl, rfl,
    rfl⟩⟩
  zeroInterrupt := ⟨0x303, rfl, rfl, rfl, rfl, rfl, rfl, rfl⟩
  nullInterrupt := ⟨0x323, rfl, rfl, rfl, rfl, rfl, rfl, rfl⟩
  zero := ⟨by decide, returning_compiled rfl⟩
  null := ⟨by decide, returning_compiled rfl⟩
  keyboard := returning_compiled rfl
  congr _ _ _ h := h

/-- The idle kernel, with interrupts let in. -/
def loneCpu : Cpu (List (Nat × UInt8)) where
  regs r := if r = .esp then 0x10000 else 0
  eip := 0x500
  cs := 8
  eflags := 0x202
  shadow := false
  control := ⟨0, 0, 8 * kernelTotalInterrupts - 1, 0x2000⟩
  mem := loneMem
  dev := []

theorem lone_table : TableLoaded loneSymbols loneCpu where
  limit := rfl
  base := rfl
  gates n hn := by
    have hmem : loneCpu.mem = loneMem := by simp only [loneCpu]
    rw [hmem, loneMem]
    exact (idtInit_spec loneSymbols_linked _).1 n hn

theorem lone_untouched : Untouched loneSymbols 0x8000 (loneCpu.regs .esp) ∅ := by
  intro x hx
  exact ⟨.inl (lt_of_lt_of_le (tables_lone hx) (by decide)), Set.notMem_empty x⟩

theorem lone_ready : Ready loneSymbols ∅ (fun _ => True) 0 0x8000 loneCpu where
  sound := ⟨fun r => by cases r <;> decide, by decide, by decide, by decide⟩
  good := trivial
  table := lone_table
  stack := by decide
  apart x hx := hx.elim
  untouched := lone_untouched

theorem lone_deliver (n : Nat) (hn : n < kernelTotalInterrupts) : deliver n loneCpu =
    some (enter ⟨handler loneSymbols n, kernelCodeSelector, 0xee⟩ loneCpu) := by
  rw [lone_ready.table.deliver_eq, if_pos hn]

/-- The timer's interrupt and a key, at the same state. -/
theorem interrupt_resumes_lone :
    (∃ d, deliver 0x20 loneCpu = some d ∧ Leads loneMachine Closed
      (StubResumed loneMachine ∅ (fun _ => True) 0x8000 0x420 idtNull loneCpu) d) ∧
    ∃ d, deliver 0x21 loneCpu = some d ∧ Leads loneMachine Closed
      (KeyResumed loneMachine ∅ (fun _ => True) 0x8000 loneCpu) d :=
  ⟨⟨_, lone_deliver 0x20 (by decide), (interrupt_resumes lone_handlers lone_ready
    (lone_deliver 0x20 (by decide))).1 (by decide)⟩,
  ⟨_, lone_deliver 0x21 (by decide), (interrupt_resumes lone_handlers lone_ready
    (lone_deliver 0x21 (by decide))).2 rfl⟩⟩

/-- A run with one interrupt, by a key. -/
theorem idle_interrupted_lone : ∃ d, Leads loneMachine Closed (Idle loneMachine loneSymbols ∅
    (fun _ => True) 0 0x8000 loneCpu [0x21]) d :=
  ⟨_, idle_interrupted lone_handlers lone_ready rfl rfl
    (Run.single (.interrupt (by decide) (lone_deliver 0x21 (by decide))))⟩

end

end KokoOs.Interrupts
