/-
# The boot loader, in protected mode (`boot/boot.asm`)

`_load_protected_mode` has `ata_lba_read` load 100 sectors from sector 1 on to 0x100000, and jumps
there.  `ata_lba_read` puts the sector number into the registers of the disk byte by byte, but
forgets the `out` of bits 16 to 23: they stay what they were.  `bootLoader_loads` says what is
loaded then, whatever the delays of the disk: the sectors from `1 + 65536 * lbaHigh` on, which are
those of the kernel if and only if that register was 0.

* **Waiting.**  The polling loop ends when the disk is ready, by induction on how long it is busy
  (`waits`).
* **A sector.**  `rep insw` takes 256 words out of the data port, and the count comes off the stack
  and is counted down (`sector`).
* **All sectors.**  `sectors` is the loop, by induction on how many are left.  The stack is below
  the place where the sectors go, so the return address is still there at the end.

The segments are flat, as the table of `boot.asm` would make them, and the A20 line is on.  The code has
reloaded neither `es` nor `ds` when it comes to `rep insw`, so this is an assumption about the machine
that it runs on.
-/
import KokoOs.Lib.I386

namespace KokoOs.Boot

open Bytes I386 I386.Cpu Ports

/-! ## 1. The code -/

/-- Where the labels are. -/
structure Labels where
  loadProtectedMode : Nat
  ataLbaRead : Nat
  nextSector : Nat
  tryAgain : Nat

abbrev kernelAddress : Nat := 0x00100000
abbrev kernelSectors : Nat := 0x64

/-- `_load_protected_mode`. -/
def loadProtectedModeCode (y : Labels) : List Instr :=
  [.movImm .eax 0x01, .movImm .ecx kernelSectors, .movImm .edi kernelAddress, .call y.ataLbaRead,
    .jmp kernelAddress]

/-- `ata_lba_read`, up to its loop. -/
def ataLbaReadCode : List Instr :=
  [.mov .ebx .eax,
    .movDx 0x1f6, .movAl 0xE0, .outAl,
    .movDx 0x1f2, .mov .eax .ecx, .outAl,
    .movDx 0x1f3, .mov .eax .ebx, .outAl,
    .movDx 0x1f4, .mov .eax .ebx, .shr .eax 8, .outAl,
    .movDx 0x1F5, .mov .eax .ebx, .shr .eax 16,
    .movDx 0x1f7, .movAl 0x20, .outAl]

/-- From `.next_sector` on. -/
def nextSectorCode : List Instr := [.push .ecx]

/-- From `.try_again` on. -/
def tryAgainCode (y : Labels) : List Instr :=
  [.movDx 0x1f7, .inAl, .testAl 8, .jz y.tryAgain,
    .movImm .ecx 256, .movDx 0x1f0, .repInsw,
    .pop .ecx, .loop y.nextSector, .ret]

/-- The code is in place, on a machine with a disk. -/
structure Booted (M : Machine Ports.Ata) (y : Labels) : Prop where
  ports : M.ports = Ports.Ata.ports
  loadProtectedMode : ∃ q, q < 2 ^ 32 ∧ Placed M y.loadProtectedMode (loadProtectedModeCode y) q
  ataLbaRead : Placed M y.ataLbaRead ataLbaReadCode y.nextSector
  nextSector : Placed M y.nextSector nextSectorCode y.tryAgain
  tryAgain : ∃ q, Placed M y.tryAgain (tryAgainCode y) q

/-! ## 2. A sector -/

section

variable {M : Machine Ports.Ata} {y : Labels} {c : Cpu Ports.Ata}

/-- `rep insw` takes its words out of the data port of the disk. -/
theorem insWords_disk : ∀ (k : Nat) (c : Cpu Ports.Ata), c.dx = 0x1F0 → c.regs .edi + 2 * k < 2 ^ 32 →
    ((c.insWords Ports.Ata.ports k).mem, (c.insWords Ports.Ata.ports k).dev) =
      Ports.Ata.insWords k (c.regs .edi) (c.mem, c.dev) ∧
    (c.insWords Ports.Ata.ports k).regs .edi = c.regs .edi + 2 * k ∧
    (∀ r, r ≠ .edi → (c.insWords Ports.Ata.ports k).regs r = c.regs r) := by
  intro k
  induction k with
  | zero => exact fun c _ _ => ⟨rfl, rfl, fun _ _ => rfl⟩
  | succ k ih =>
    intro c hdx hedi
    obtain ⟨c1, hc1⟩ : ∃ c1 : Cpu Ports.Ata, c1 = { c.setReg .edi (c.regs .edi + 2) with
      mem := putU16 c.mem (c.regs .edi) c.dev.readData.1, dev := c.dev.readData.2 } := ⟨_, rfl⟩
    have hstep : c.insWords Ports.Ata.ports (k + 1) = c1.insWords Ports.Ata.ports k := by
      rw [hc1, Cpu.insWords, hdx, Nat.mod_eq_of_lt (by omega)]
      rfl
    have hedi1 : c1.regs .edi = c.regs .edi + 2 := by simp [hc1, setReg]
    have hregs1 : ∀ r, r ≠ .edi → c1.regs r = c.regs r := fun r hr => by rw [hc1]; exact setReg_of_ne hr ..
    have hmem1 : (c1.mem, c1.dev) =
        (putU16 c.mem (c.regs .edi) c.dev.readData.1, c.dev.readData.2) := by rw [hc1]
    obtain ⟨hmem, hedi', hregs⟩ := ih c1 (by
      rw [dx, hregs1 .edx (by decide)]
      exact hdx) (by omega)
    rw [hstep]
    refine ⟨?_, by omega, fun r hr => (hregs r hr).trans (hregs1 r hr)⟩
    rw [hmem, hedi1, hmem1]
    rfl

/-- What a turn of the loop does not touch. -/
structure Turning (c c' : Cpu Ports.Ata) : Prop where
  mem : c'.mem = c.mem
  regs : ∀ r, r ≠ .eax → r ≠ .edx → c'.regs r = c.regs r

/-- The status is read once. -/
theorem polls {q : Nat} (hM : Booted M y) (htry : Placed M y.tryAgain (tryAgainCode y) q)
    (heip : c.eip = y.tryAgain) {Q : Cpu Ports.Ata → Prop}
    (hnext : ∀ c', Turning c c' → c'.dev = c.dev.status.2 →
      (c.dev.status.1 &&& 8 = 0 → c'.eip = y.tryAgain) →
      (c.dev.status.1 &&& 8 ≠ 0 → Placed M c'.eip [.movImm .ecx 256, .movDx 0x1f0, .repInsw,
        .pop .ecx, .loop y.nextSector, .ret] q) → GetsTo M Q c') : GetsTo M Q c := by
  refine Leads.instr htry heip trivial fun htry => ?_
  obtain ⟨c1, hc1⟩ : ∃ c1, c1 = (c.advance (y.tryAgain + M.size (.movDx 0x1f7))).setDx 0x1f7 := ⟨_, rfl⟩
  have hdx : c1.dx = 0x1f7 := by rw [hc1, dx_setDx]
  have h1 : Turning c c1 := ⟨by rw [hc1]; rfl, fun r _ hr => by rw [hc1]; exact setReg_of_ne hr ..⟩
  have hdev1 : c1.dev = c.dev := by rw [hc1]; rfl
  simp only [exec, ← hc1]
  refine Leads.instr htry (by rw [hc1]; rfl) trivial fun htry => ?_
  obtain ⟨c2, hc2⟩ : ∃ c2 : Cpu Ports.Ata, c2 = { (c1.advance (y.tryAgain + M.size (.movDx 0x1f7) +
    M.size .inAl)).setAl c.dev.status.1 with dev := c.dev.status.2 } := ⟨_, rfl⟩
  have hin : exec M.ports .inAl (c1.advance (y.tryAgain + M.size (.movDx 0x1f7) + M.size .inAl)) = c2 := by
    have hdx' : (c1.advance (y.tryAgain + M.size (.movDx 0x1f7) + M.size .inAl)).dx = 0x1f7 := hdx
    rw [exec, hM.ports, hdx', hc2, ← hdev1]
    rfl
  have hal : c2.al = c.dev.status.1 := by
    rw [hc2]
    exact al_setAl ..
  have h2 : Turning c c2 := ⟨by rw [hc2]; exact h1.mem, fun r hr hr' => by
    rw [hc2]
    exact (setReg_of_ne hr ..).trans (h1.regs r hr hr')⟩
  have hdev2 : c2.dev = c.dev.status.2 := by rw [hc2]
  rw [hin]
  refine Leads.instr htry (by rw [hc2]; rfl) trivial fun htry => ?_
  obtain ⟨next, hn⟩ : ∃ next, next = y.tryAgain + M.size (.movDx 0x1f7) + M.size .inAl + M.size (.testAl 8) :=
    ⟨_, rfl⟩
  obtain ⟨c3, hc3⟩ : ∃ c3, c3 = exec M.ports (.testAl 8) (c2.advance next) := ⟨_, rfl⟩
  have hzero : c3.zeroFlag = (c.dev.status.1 &&& 8 == 0) := by
    rw [hc3, ← hal]
    exact zeroFlag_setZero ..
  rw [← hn] at htry ⊢
  rw [← hc3]
  have h3 : Turning c c3 := by
    rw [hc3]
    exact ⟨h2.mem, h2.regs⟩
  have hdev3 : c3.dev = c.dev.status.2 := by rw [hc3]; exact hdev2
  refine Leads.instr htry (by rw [hc3]; rfl) trivial fun hrest => ?_
  have hflag : (c3.advance (next + M.size (.jz y.tryAgain))).zeroFlag = (c.dev.status.1 &&& 8 == 0) := hzero
  simp only [exec, hflag]
  by_cases h : c.dev.status.1 &&& 8 = 0
  · rw [if_pos (by simp [h])]
    exact hnext _ ⟨h3.mem, h3.regs⟩ hdev3 (fun _ => rfl) fun h' => absurd h h'
  · rw [if_neg (by simp [h])]
    exact hnext _ ⟨h3.mem, h3.regs⟩ hdev3 (fun h' => absurd h' h) fun _ => hrest

/-- **The polling loop** ends when the disk is ready, by induction on how long it is busy. -/
theorem waits {q : Nat} (hM : Booted M y) (htry : Placed M y.tryAgain (tryAgainCode y) q)
    {Q : Cpu Ports.Ata → Prop} (b : Nat) : ∀ {c : Cpu Ports.Ata} {d : Ports.Ata}, c.eip = y.tryAgain →
    c.dev = { d with busy := b } → d.isMoving = true →
    (∀ c', Turning c c' → c'.dev = d.settle → Placed M c'.eip [.movImm .ecx 256, .movDx 0x1f0, .repInsw,
      .pop .ecx, .loop y.nextSector, .ret] q → GetsTo M Q c') → GetsTo M Q c := by
  induction b with
  | zero =>
    intro c d heip hdev hmoving hnext
    obtain ⟨write, lba, left, word, hphase⟩ := Ports.Ata.exists_of_isMoving hmoving
    have hstatus : c.dev.status = (0x58, d.settle) := by
      rw [hdev]
      exact Ports.Ata.status_ready hphase
    refine polls hM htry heip fun c' hturn hdev' _ hrest => hnext c' hturn ?_ (hrest ?_)
    · rw [hdev', hstatus]
    · rw [hstatus]
      exact show (0x58 : UInt8) &&& 8 ≠ 0 by decide
  | succ b ih =>
    intro c d heip hdev hmoving hnext
    obtain ⟨write, lba, left, word, hphase⟩ := Ports.Ata.exists_of_isMoving hmoving
    have hstatus : c.dev.status = (0x80, { d with busy := b }) := by
      rw [hdev]
      exact Ports.Ata.status_busy hphase
    refine polls hM htry heip fun c' hturn hdev' heip' _ => ih (heip' ?_) ?_ hmoving ?_
    · rw [hstatus]
      exact show (0x80 : UInt8) &&& 8 = 0 by decide
    · rw [hdev', hstatus]
    · exact fun c2 hturn2 hdev2 hrest => hnext c2 ⟨hturn2.mem.trans hturn.mem, fun r hr hr' =>
        (hturn2.regs r hr hr').trans (hturn.regs r hr hr')⟩ hdev2 hrest

/-- 256 words are taken out of the data port. -/
theorem takesWords {p q : Nat} {js : List Instr} (hM : Booted M y)
    (hp : Placed M p ([.movImm .ecx 256, .movDx 0x1f0, .repInsw] ++ js) q) (heip : c.eip = p)
    (hedi : c.regs .edi + 512 < 2 ^ 32) {Q : Cpu Ports.Ata → Prop}
    (hnext : ∀ c', (c'.mem, c'.dev) = Ports.Ata.insWords 256 (c.regs .edi) (c.mem, c.dev) →
      c'.regs .edi = c.regs .edi + 512 → c'.regs .esp = c.regs .esp → Placed M c'.eip js q → GetsTo M Q c') :
    GetsTo M Q c := by
  refine Leads.instr hp heip trivial fun hp => ?_
  refine Leads.instr hp rfl trivial fun hp => ?_
  obtain ⟨c1, hc1⟩ : ∃ c1, c1 = exec M.ports (.movDx 0x1f0) ((exec M.ports (.movImm .ecx 256)
    (c.advance (p + M.size (.movImm .ecx 256)))).advance (p + M.size (.movImm .ecx 256) +
      M.size (.movDx 0x1f0))) := ⟨_, rfl⟩
  have hregs : ∀ r, r ≠ .ecx → r ≠ .edx → c1.regs r = c.regs r := fun r hr hr' => by
    rw [hc1]
    exact (setReg_of_ne hr' ..).trans (setReg_of_ne hr ..)
  have hecx : c1.regs .ecx = 256 := by simp [hc1, exec, setDx, setReg, advance]
  have hdx : c1.dx = 0x1f0 := by
    rw [hc1]
    exact dx_setDx ..
  have hmem : (c1.mem, c1.dev) = (c.mem, c.dev) := by rw [hc1]; rfl
  rw [← hc1]
  refine Leads.instr hp (by rw [hc1]; rfl) trivial fun hrest => ?_
  obtain ⟨c2, hc2⟩ : ∃ c2, c2 = c1.advance (p + M.size (.movImm .ecx 256) + M.size (.movDx 0x1f0) +
    M.size .repInsw) := ⟨_, rfl⟩
  have hregs2 : c2.regs = c1.regs := by rw [hc2]; rfl
  have hdx2 : c2.dx = 0x1f0 := by rw [hc2]; exact hdx
  have hmem2 : (c2.mem, c2.dev) = (c.mem, c.dev) := by rw [← hmem, hc2]; rfl
  have hedi2 : c2.regs .edi = c.regs .edi := by rw [hregs2, hregs _ (by decide) (by decide)]
  obtain ⟨hwords, hedi', hothers⟩ := insWords_disk 256 c2 hdx2 (by omega)
  have hins : exec M.ports .repInsw c2 = (c2.insWords Ports.Ata.ports 256).setReg .ecx 0 := by
    rw [exec, hM.ports, hregs2, hecx]
  rw [← hc2, hins]
  refine hnext _ ?_ ?_ ?_ ?_
  · rw [setReg_mem, setReg_dev, hwords, hedi2, hmem2]
  · rw [setReg_of_ne (by decide), hedi', hedi2]
  · rw [setReg_of_ne (by decide), hothers _ (by decide), hregs2, hregs _ (by decide) (by decide)]
  · rw [setReg_eip, insWords_eip, hc2]
    exact hrest

/-- One sector has been read: `n` are left. -/
structure SectorLoaded (c : Cpu Ports.Ata) (d : Ports.Ata) (lba n : Nat) (c' : Cpu Ports.Ata) : Prop where
  esp : c'.regs .esp = c.regs .esp
  ecx : c'.regs .ecx = n
  edi : c'.regs .edi = c.regs .edi + 512
  dev : c'.dev = (d.seek false lba (n + 1)).settle.seek false (lba + 1) n
  mem : ∀ x, x < c.regs .esp - 4 ∨ c.regs .esp ≤ x →
    c'.mem x = blit c.mem (c.regs .edi) (slice d.image (512 * lba) 512) x

/-- The count has come off the stack, and one has been taken away. -/
structure CountedDown (top n : Nat) (c c' : Cpu Ports.Ata) : Prop where
  esp : c'.regs .esp = top
  ecx : c'.regs .ecx = n
  edi : c'.regs .edi = c.regs .edi
  mem : c'.mem = c.mem
  dev : c'.dev = c.dev

/-- `pop ecx`, and `loop`. -/
theorem countsDown {q top n : Nat} (hcode : Placed M c.eip [.pop .ecx, .loop y.nextSector, .ret] q)
    (hstack : OnStack top c [n + 1]) (htop : top < 2 ^ 32) (hn : n + 1 < 2 ^ 32)
    {Q : Cpu Ports.Ata → Prop} (hnext : ∀ c', CountedDown top n c c' → (n ≠ 0 → c'.eip = y.nextSector) →
      (n = 0 → Placed M c'.eip [.ret] q) → GetsTo M Q c') : GetsTo M Q c := by
  refine Leads.instr hcode rfl trivial fun hloop => ?_
  obtain ⟨c1, hc1⟩ : ∃ c1, c1 = c.advance (c.eip + M.size (.pop .ecx)) := ⟨_, rfl⟩
  have hstack1 : OnStack top c1 [n + 1] := by rw [hc1]; exact hstack.advance _
  obtain ⟨hpop, hecx, hothers⟩ := hstack1.popReg (r := .ecx) htop (by decide)
  obtain ⟨c2, hc2⟩ : ∃ c2, c2 = c1.popReg .ecx := ⟨_, rfl⟩
  have hexec : exec M.ports (.pop .ecx) c1 = c2 := by rw [exec, hc2]
  rw [← hc2] at hpop hecx hothers
  rw [← hc1, hexec]
  refine Leads.instr hloop (by rw [hc2, hc1]; rfl) trivial fun hret => ?_
  obtain ⟨c3, hc3⟩ : ∃ c3, c3 = c2.advance (c.eip + M.size (.pop .ecx) + M.size (.loop y.nextSector)) :=
    ⟨_, rfl⟩
  have hcount : (c3.regs .ecx + 2 ^ 32 - 1) % 2 ^ 32 = n := by
    have hsame : c3.regs .ecx = c2.regs .ecx := by rw [hc3]; rfl
    rw [hsame, hecx]
    omega
  have hedi : c2.regs .edi = c.regs .edi := by rw [hothers _ (by decide) (by decide), hc1]; rfl
  have hdone : CountedDown top n c (c3.setReg .ecx n) := by
    refine ⟨?_, setReg_self .., ?_, ?_, ?_⟩
    · rw [setReg_of_ne (by decide), hc3]
      exact hpop.esp
    · rw [setReg_of_ne (by decide), hc3]
      exact hedi
    all_goals rw [hc3, hc2, hc1]; rfl
  have hexec : exec M.ports (.loop y.nextSector) c3 =
      if n ≠ 0 then (c3.setReg .ecx n).jump y.nextSector else c3.setReg .ecx n := by
    simp only [exec, hcount]
  rw [← hc3, hexec]
  by_cases h0 : n = 0
  · rw [if_neg (by simpa using h0)]
    exact hnext _ hdone (fun h => absurd h0 h) fun _ => by rw [setReg_eip, hc3]; exact hret
  · rw [if_pos h0]
    exact hnext _ ⟨hdone.esp, hdone.ecx, hdone.edi, hdone.mem, hdone.dev⟩ (fun _ => rfl)
      fun h => absurd h h0

/-- **One turn of the loop** over the sectors. -/
theorem sector {q lba n : Nat} {d : Ports.Ata} (hM : Booted M y)
    (htry : Placed M y.tryAgain (tryAgainCode y) q) (heip : c.eip = y.nextSector)
    (hecx : c.regs .ecx = n + 1) (hn : n + 1 < 2 ^ 32) (hdev : c.dev = d.seek false lba (n + 1))
    (hlba : lba < d.sectors) (hroom : 4 ≤ c.regs .esp) (hapart : c.regs .esp ≤ c.regs .edi)
    (hedi : c.regs .edi + 512 < 2 ^ 32) {Q : Cpu Ports.Ata → Prop}
    (hnext : ∀ c', SectorLoaded c d lba n c' → (n ≠ 0 → c'.eip = y.nextSector) →
      (n = 0 → Placed M c'.eip [.ret] q) → GetsTo M Q c') : GetsTo M Q c := by
  obtain ⟨hmoving, hat⟩ := Ports.Ata.seek_atSector false (show n + 1 ≠ 0 by omega) hlba
  -- the count goes on the stack
  refine Leads.push hM.nextSector heip trivial hroom (by omega) (hecx ▸ hn) fun c1 hpush hp => ?_
  rw [hecx] at hpush
  -- the disk is waited for, and the sector taken
  obtain ⟨e, he⟩ : ∃ e, e = d.seek false lba (n + 1) := ⟨_, rfl⟩
  refine waits hM htry e.busy (d := e) hp (by rw [hpush.dev, hdev, he]) (he ▸ hmoving)
    fun c2 hturn hdev2 hrest => ?_
  have hedi2 : c2.regs .edi = c.regs .edi :=
    (hturn.regs _ (by decide) (by decide)).trans (hpush.regs _ (by decide))
  refine takesWords hM hrest rfl (by omega) fun c3 hwords hedi3 hesp3 hrest => ?_
  rw [hedi2, hdev2, he, Ports.Ata.insWords_sector _ _ hat.phase hat.busy, hat.image, Nat.add_sub_cancel,
    Prod.mk.injEq, hturn.mem] at hwords
  obtain ⟨hmem3, hdev3⟩ := hwords
  -- the sector is not where the count is
  have hsp := hpush.stack.esp
  rw [List.length_singleton] at hsp
  have hesp31 : c3.regs .esp = c1.regs .esp := hesp3.trans (hturn.regs _ (by decide) (by decide))
  have hstack3 : OnStack (c.regs .esp) c3 [n + 1] := hpush.stack.congr hesp31 fun x hx hx' => by
    rw [hmem3, blit_of_not_mem (by omega)]
  refine countsDown hrest hstack3 (by omega) hn fun c4 h4 heip4 hret => hnext c4 ?_ heip4 hret
  refine ⟨h4.esp, h4.ecx, by rw [h4.edi, hedi3, hedi2], h4.dev.trans hdev3, fun x hx => ?_⟩
  rw [h4.mem, hmem3]
  unfold blit
  split
  · rfl
  · exact hpush.keeps x hx (Set.notMem_empty x)

/-! ## 3. All sectors -/

/-- The sectors from `lba` on are in memory, and `ata_lba_read` has returned to its caller. -/
structure AllLoaded (c : Cpu Ports.Ata) (d : Ports.Ata) (lba n : Nat) (c' : Cpu Ports.Ata) : Prop where
  eip : c'.eip = c.topWord
  esp : c'.regs .esp = c.regs .esp + 4
  holds : c'.dev.Holds d.sectors d.image
  mem : ∀ x, x < c.regs .esp - 4 ∨ c.regs .esp ≤ x →
    c'.mem x = blit c.mem (c.regs .edi) (slice d.image (512 * lba) (512 * n)) x

/-- The return address is not where the sector is. -/
theorem SectorLoaded.topWord {c' : Cpu Ports.Ata} {d : Ports.Ata} {lba n : Nat}
    (h : SectorLoaded c d lba n c') (hapart : c.regs .esp + 4 ≤ c.regs .edi) : c'.topWord = c.topWord := by
  rw [Cpu.topWord, Cpu.topWord, h.esp]
  exact u32_congr fun x hx hx' => by rw [h.mem x (by omega), blit_of_not_mem (by omega)]

/-- Behind the last sector `ret` goes back to the caller. -/
theorem SectorLoaded.last {c' : Cpu Ports.Ata} {d : Ports.Ata} {lba : Nat} (h : SectorLoaded c d lba 0 c')
    (hlba : lba < d.sectors) (hapart : c.regs .esp + 4 ≤ c.regs .edi) (hedi : c.regs .edi < 2 ^ 32)
    (next : Nat) : AllLoaded c d lba 1 (exec M.ports .ret (c'.advance next)) := by
  refine ⟨h.topWord hapart, ?_, ?_, h.mem⟩
  · refine (dropWord_esp (c'.advance next)).trans ?_
    have hesp : (c'.advance next).regs .esp = c.regs .esp := h.esp
    rw [hesp]
    omega
  · obtain ⟨-, hat⟩ := Ports.Ata.seek_atSector false (show 0 + 1 ≠ 0 by omega) hlba
    have hdev : (exec M.ports .ret (c'.advance next)).dev = c'.dev := rfl
    rw [hdev, h.dev, Ports.Ata.seek, if_pos rfl]
    exact ⟨rfl, hat.sectors, hat.image⟩

/-- A sector in front of the others. -/
theorem SectorLoaded.cons {c1 c2 : Cpu Ports.Ata} {d : Ports.Ata} {lba n : Nat}
    (h1 : SectorLoaded c d lba n c1)
    (h2 : AllLoaded c1 (d.seek false lba (n + 1)).settle (lba + 1) n c2) (hlba : lba < d.sectors)
    (hapart : c.regs .esp + 4 ≤ c.regs .edi) : AllLoaded c d lba (n + 1) c2 := by
  obtain ⟨-, hat⟩ := Ports.Ata.seek_atSector false (show n + 1 ≠ 0 by omega) hlba
  have hesp := h1.esp
  refine ⟨h2.eip.trans (h1.topWord hapart), by rw [h2.esp, hesp], ?_, fun x hx => ?_⟩
  · have hholds := h2.holds
    rw [hat.sectors, hat.image] at hholds
    exact hholds
  · rw [h2.mem x (by omega), hat.image, h1.edi, show 512 * (n + 1) = 512 + 512 * n by omega, slice_add,
      blit_append, length_slice]
    have hfirst := h1.mem x hx
    rw [show 512 * (lba + 1) = 512 * lba + 512 by omega]
    unfold blit at hfirst ⊢
    split
    · rfl
    · exact hfirst

/-- **The loop over the sectors**, by induction on how many are left. -/
theorem sectors {q : Nat} (hM : Booted M y) (htry : Placed M y.tryAgain (tryAgainCode y) q) (n : Nat) :
    ∀ {c : Cpu Ports.Ata} {d : Ports.Ata} {lba : Nat}, c.eip = y.nextSector → c.regs .ecx = n + 1 →
    n + 1 < 2 ^ 32 → c.dev = d.seek false lba (n + 1) → lba + (n + 1) ≤ d.sectors → 4 ≤ c.regs .esp →
    c.regs .esp + 4 ≤ c.regs .edi → c.regs .edi + 512 * (n + 1) < 2 ^ 32 →
    GetsTo M (AllLoaded c d lba (n + 1)) c := by
  induction n with
  | zero =>
    intro c d lba heip hecx hn hdev hlba hroom hapart hedi
    refine sector hM htry heip hecx hn hdev (by omega) hroom (by omega) (by omega)
      fun c1 h1 _ hret => ?_
    exact Leads.instr (hret rfl) rfl trivial fun _ => .here (h1.last (by omega) hapart (by omega) _)
  | succ n ih =>
    intro c d lba heip hecx hn hdev hlba hroom hapart hedi
    have hk0 : n + 1 ≠ 0 := Nat.succ_ne_zero n
    generalize n + 1 = k at *
    obtain ⟨-, hat⟩ := Ports.Ata.seek_atSector false (show k + 1 ≠ 0 by omega) (show lba < d.sectors by omega)
    have hedi0 : c.regs .edi + 512 < 2 ^ 32 :=
      lt_of_le_of_lt (Nat.add_le_add_left (Nat.le_mul_of_pos_right 512 k.succ_pos) _) hedi
    refine sector hM htry heip hecx hn hdev (by omega) hroom (by omega) hedi0 fun c1 h1 hnext _ => ?_
    have hesp := h1.esp
    have hedi1 := h1.edi
    exact (ih (hnext hk0) h1.ecx (by omega) h1.dev (by rw [hat.sectors]; omega) (by omega)
      (by omega) (by omega)).mono fun c2 h2 => h1.cons h2 (by omega) hapart

/-- The first sector that is read, when the register of bits 16 to 23 holds `high`. -/
def firstSector (lba : Nat) (high : UInt8) : Nat := lba % 65536 + 65536 * high.toNat

/-- The registers of the disk, with the command that reads. -/
theorem command_boot (d : Ports.Ata) (lba : Nat) {n : Nat} (hn : n < 256) (hn0 : n ≠ 0) : ∃ e : Ports.Ata,
    Ports.Ata.command 0x20 { d with
      drive := 0xE0, sectorCount := UInt8.ofNat n, lbaLow := UInt8.ofNat lba,
      lbaMid := UInt8.ofNat (lba >>> 8) } = e.seek false (firstSector lba d.lbaHigh) n ∧
    e.sectors = d.sectors ∧ e.image = d.image := by
  obtain ⟨e, he⟩ : ∃ e : Ports.Ata, e = { d with
      drive := 0xE0, sectorCount := UInt8.ofNat n, lbaLow := UInt8.ofNat lba,
      lbaMid := UInt8.ofNat (lba >>> 8) } := ⟨_, rfl⟩
  have hdrive : e.drive = 0xE0 := by rw [he]
  have hcommand := (Ports.Ata.command_first (d := e) (by rw [hdrive]; decide) (by rw [hdrive]; decide)).1
  have hlba : e.lba = firstSector lba d.lbaHigh := by
    rw [he]
    simp only [Ports.Ata.lba, firstSector, UInt8.toNat_ofNat', Nat.shiftRight_eq_div_pow]
    rw [show (0xE0 : UInt8).toNat % 16 = 0 by decide]
    omega
  have hcount : e.count = n := by
    have hsector : (UInt8.ofNat n).toNat = n := by rw [UInt8.toNat_ofNat']; omega
    rw [he]
    simp only [Ports.Ata.count]
    rw [if_neg fun h => hn0 (by rw [← hsector, h]; rfl), hsector]
  refine ⟨e, ?_, by rw [he], by rw [he]⟩
  rw [← he, hcommand, hlba, hcount]

/-- **`ata_lba_read`** reads `n` sectors to the address in `edi`. -/
theorem ataLbaRead_loads {n : Nat} (hM : Booted M y) (heip : c.eip = y.ataLbaRead)
    (hecx : c.regs .ecx = n + 1) (hn : n + 1 < 256)
    (hsectors : firstSector (c.regs .eax) c.dev.lbaHigh + (n + 1) ≤ c.dev.sectors)
    (hroom : 4 ≤ c.regs .esp) (hapart : c.regs .esp + 4 ≤ c.regs .edi)
    (hedi : c.regs .edi + 512 * (n + 1) < 2 ^ 32) :
    GetsTo M (AllLoaded c c.dev (firstSector (c.regs .eax) c.dev.lbaHigh) (n + 1)) c := by
  obtain ⟨q, htry⟩ := hM.tryAgain
  have hports := hM.ports
  have hcode := hM.ataLbaRead
  rw [← List.append_nil ataLbaReadCode] at hcode
  refine Leads.straight (by decide) hcode heip fun heip1 => ?_
  obtain ⟨c1, hc1⟩ : ∃ c1, c1 = execAll M ataLbaReadCode c := ⟨_, rfl⟩
  have hregs : ∀ r, r = .ecx ∨ r = .edi ∨ r = .esp → c1.regs r = c.regs r := by
    rintro r (rfl | rfl | rfl) <;> rw [hc1] <;>
      simp [ataLbaReadCode, execAll, exec, setReg, setDx, setAl, setResult, setZero, advance]
  have hmem : c1.mem = c.mem := by
    rw [hc1]
    simp [ataLbaReadCode, execAll, exec, setReg, setDx, setAl, setResult, setZero, advance]
  obtain ⟨e, he, hesectors, heimage⟩ := command_boot c.dev (c.regs .eax) hn (Nat.succ_ne_zero n)
  have hdev : c1.dev = e.seek false (firstSector (c.regs .eax) c.dev.lbaHigh) (n + 1) := by
    rw [← he, ← hecx, hc1]
    simp [ataLbaReadCode, execAll, exec, setReg, setDx, setAl, setResult, setZero, advance, hports, dx, al,
      Ports.Ata.ports]
  have hesp := hregs .esp (by simp)
  have hedi1 := hregs .edi (by simp)
  rw [← hc1] at heip1 ⊢
  refine (sectors hM htry n heip1 ((hregs .ecx (by simp)).trans hecx) (by omega) hdev
    (by rw [hesectors]; exact hsectors) (hesp ▸ hroom) (by rw [hesp, hedi1]; exact hapart)
    (by rw [hedi1]; exact hedi)).mono fun c2 h2 => ⟨?_, ?_, ?_, fun x hx => ?_⟩
  · rw [h2.eip, topWord, topWord, hesp, hmem]
  · rw [h2.esp, hesp]
  · rw [← hesectors, ← heimage]
    exact h2.holds
  · rw [h2.mem x (by rw [hesp]; exact hx), hedi1, hmem, heimage]

/-- The kernel has been entered, with the sectors from `first` on where it is expected. -/
structure KernelEntered (c : Cpu Ports.Ata) (first : Nat) (c' : Cpu Ports.Ata) : Prop where
  eip : c'.eip = kernelAddress
  esp : c'.regs .esp = c.regs .esp
  holds : c'.dev.Holds c.dev.sectors c.dev.image
  loaded : slice c'.mem kernelAddress (512 * kernelSectors) =
    slice c.dev.image (512 * first) (512 * kernelSectors)
  mem : ∀ x, x < c.regs .esp - 8 ∨ c.regs .esp ≤ x →
    ¬ (kernelAddress ≤ x ∧ x < kernelAddress + 512 * kernelSectors) → c'.mem x = c.mem x

/-- **The boot loader** loads the sectors from `firstSector 1 lbaHigh` on, where `lbaHigh` is what the
register of bits 16 to 23 held before, and jumps to them. -/
theorem bootLoader_loads (hM : Booted M y) (heip : c.eip = y.loadProtectedMode) (hroom : 8 ≤ c.regs .esp)
    (hstack : c.regs .esp ≤ kernelAddress)
    (hsectors : firstSector 1 c.dev.lbaHigh + kernelSectors ≤ c.dev.sectors) :
    GetsTo M (KernelEntered c (firstSector 1 c.dev.lbaHigh)) c := by
  obtain ⟨q, hq, hcode⟩ := hM.loadProtectedMode
  have hkernel : kernelAddress = 1048576 := rfl
  obtain ⟨first, hfirst⟩ : ∃ first : List Instr, first = [.movImm .eax 0x01, .movImm .ecx kernelSectors,
    .movImm .edi kernelAddress] := ⟨_, rfl⟩
  have hparts : loadProtectedModeCode y = first ++ [.call y.ataLbaRead, .jmp kernelAddress] := by
    rw [hfirst]
    rfl
  rw [hparts] at hcode
  refine Leads.straight (by rw [hfirst]; decide) hcode heip fun hcall => ?_
  obtain ⟨c1, hc1⟩ : ∃ c1, c1 = execAll M first c := ⟨_, rfl⟩
  have hregs1 : c1.regs .eax = 1 ∧ c1.regs .ecx = kernelSectors ∧ c1.regs .edi = kernelAddress ∧
      c1.regs .esp = c.regs .esp := by
    rw [hc1, hfirst]
    simp [execAll, exec, setReg, advance]
  have hmem1 : (c1.mem, c1.dev) = (c.mem, c.dev) := by rw [hc1, hfirst]; rfl
  obtain ⟨heax, hecx, hedi, hesp⟩ := hregs1
  obtain ⟨hmem1, hdev1⟩ := Prod.mk.inj hmem1
  rw [← hc1] at hcall ⊢
  -- the return address is that of the jump to the kernel
  refine Leads.call hcall rfl trivial (by omega) (by omega) hq fun back c2 hpush heip2 hjump => ?_
  have hstack2 : OnStack (c.regs .esp) c2 [back] := hesp ▸ hpush.stack
  have hkeeps : Keeps (c.regs .esp - 4) (c.regs .esp) ∅ c1 c2 := hesp ▸ hpush.keeps
  have hdev2 : c2.dev = c.dev := hpush.dev.trans hdev1
  have heax2 : c2.regs .eax = 1 := (hpush.regs _ (by decide)).trans heax
  have hecx2 : c2.regs .ecx = 99 + 1 := (hpush.regs _ (by decide)).trans hecx
  have hedi2 : c2.regs .edi = kernelAddress := (hpush.regs _ (by decide)).trans hedi
  have hsp2 := hstack2.esp
  rw [List.length_singleton] at hsp2
  have hload := ataLbaRead_loads (c := c2) hM heip2 hecx2 (by decide)
    (by rw [heax2, hdev2]; exact hsectors) (by omega) (by rw [hedi2]; omega) (by rw [hedi2]; decide)
  rw [heax2, hdev2] at hload
  refine hload.trans fun c3 h3 => ?_
  refine Leads.instr hjump (h3.eip.trans (hstack2.words 0 (by simp))) trivial fun _ => .here ?_
  have hmem3 : ∀ x, x < c.regs .esp - 8 ∨ c.regs .esp ≤ x → c3.mem x =
      blit c.mem kernelAddress (slice c.dev.image (512 * firstSector 1 c.dev.lbaHigh)
        (512 * kernelSectors)) x := by
    intro x hx
    rw [h3.mem x (by omega), hedi2]
    unfold blit
    split
    · rfl
    · rw [hkeeps x (by omega) (Set.notMem_empty x), hmem1]
  refine ⟨rfl, ?_, h3.holds, ?_, fun x hx hx' => (hmem3 x hx).trans (blit_of_not_mem ?_)⟩
  · exact h3.esp.trans (by rw [hsp2])
  · rw [← slice_blit c.mem kernelAddress (slice c.dev.image _ (512 * kernelSectors)), length_slice]
    exact slice_congr fun i _ => hmem3 _ (by omega)
  · rw [length_slice]
    exact hx'

end

section

def bootLabels : Labels := ⟨0x7d00, 0x7d10, 0x7d24, 0x7d25⟩

def bootMachine : Machine Ports.Ata where
  ports := Ports.Ata.ports
  code a := (listing 0x7d25 (tryAgainCode bootLabels) a).or ((listing 0x7d24 nextSectorCode a).or
    ((listing 0x7d10 ataLbaReadCode a).or (listing 0x7d00 (loadProtectedModeCode bootLabels) a)))
  size _ := 1
  given _ := none

theorem bootMachine_booted : Booted bootMachine bootLabels where
  ports := rfl
  loadProtectedMode := ⟨0x7d05, by decide, rfl, rfl, rfl, rfl, rfl, rfl, rfl, rfl, rfl, rfl, rfl⟩
  ataLbaRead := ⟨rfl, rfl, rfl, rfl, rfl, rfl, rfl, rfl, rfl, rfl, rfl, rfl, rfl, rfl, rfl, rfl, rfl, rfl, rfl, rfl,
    rfl, rfl, rfl, rfl, rfl, rfl, rfl, rfl, rfl, rfl, rfl, rfl, rfl, rfl, rfl, rfl, rfl, rfl, rfl, rfl, rfl⟩
  nextSector := ⟨rfl, rfl, rfl⟩
  tryAgain := ⟨0x7d2f, rfl, rfl, rfl, rfl, rfl, rfl, rfl, rfl, rfl, rfl, rfl, rfl, rfl, rfl, rfl, rfl, rfl, rfl, rfl,
    rfl, rfl⟩

/-- A disk of 200 sectors, whose registers are 0. -/
def bootCpu : Cpu Ports.Ata where
  regs r := if r = .esp then 0x7c00 else 0
  eip := 0x7d00
  cs := 8
  eflags := 2
  shadow := false
  control := ⟨1, 0, 0, 0⟩
  mem _ := 0
  dev := ⟨200, fun x => UInt8.ofNat (x / 512), 0, 0, 0, 0, 0, .idle, 0, fun i => i⟩

theorem bootLoader_loads_first : GetsTo bootMachine (KernelEntered bootCpu 1) bootCpu :=
  bootLoader_loads bootMachine_booted rfl (by decide) (by decide) (by decide)

end

end KokoOs.Boot
