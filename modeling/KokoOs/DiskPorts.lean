/-
# The disk driver at its ports (`lib/io/disk.c`)

`Sys` has a disk that moves whole sectors.  The driver moves words: it puts the sector number and
the count into the registers of an ATA disk, gives the command, and for each sector reads the status
until the disk is ready and then moves 256 words through the data port.  The functions here do that,
on the disk of `Lib.Ports`, and `port_runs_refine` says that nothing above the driver can tell the
difference: whatever the delays of the disk are, a run of block reads and writes at the ports has
the same answers, the same memory and the same bytes on the disk as one on whole sectors, and where
a call of the one never ends, neither does that of the other.

* **Commands.**  The disk is told what the driver was asked for (`command_addressed`).  Sector
  numbers have 28 bits; a position in bytes has 32, so that those of the file system have no more
  than 23.
* **Sectors.**  The loops of the driver move sectors as the disk does, and hang when it never gets
  ready for one (`Moves`).
* **Calls and runs.**  `Refines` is about one call, in both directions; a run is a chain of these, with
  whatever the callers do to memory in between.
-/
import KokoOs.Sys
import KokoOs.Lib.Ports
import KokoOs.Lib.Run

namespace KokoOs.AtPorts

open Bytes Prog
open Runs (Run AllSteps)

/-! ## 1. The functions -/

/-- The memory, and the disk behind the ports. -/
structure PortState where
  mem : Mem
  device : Ports.Ata

/-- Programs that use the ports. -/
abbrev PortM := EStateM Halt PortState

def insb (port : Nat) : PortM UInt8 := do
  let s ← get
  let (c, device) := Ports.Ata.ports.inb port s.device
  set { s with device }
  return c

def insw (port : Nat) : PortM Nat := do
  let s ← get
  let (v, device) := Ports.Ata.ports.inw port s.device
  set { s with device }
  return v

def outb (port : Nat) (val : UInt8) : PortM Unit :=
  modify fun s => { s with device := Ports.Ata.ports.outb port val s.device }

def outw (port val : Nat) : PortM Unit :=
  modify fun s => { s with device := Ports.Ata.ports.outw port val s.device }

abbrev commandPort : Nat := 0x01F7
abbrev readMode : UInt8 := 0x20
abbrev writeMode : UInt8 := 0x30
abbrev diskSectorWords : Nat := 256

/-- `disk_init_disk_from_lba`; every value is cut to the eight bits of a register. -/
def diskInitDiskFromLba (lba sectors : Nat) : PortM Unit := do
  outb 0x01F6 (UInt8.ofNat (lba >>> 24 ||| 0xE0))
  outb 0x01F2 (UInt8.ofNat sectors)
  outb 0x01F3 (UInt8.ofNat (lba &&& 0xff))
  outb 0x01F4 (UInt8.ofNat (lba >>> 8))
  outb 0x01F5 (UInt8.ofNat (lba >>> 16))

/-- The loop that waits until the sector buffer is ready, with the status that was read last. -/
def diskWaitLoop : Nat → UInt8 → PortM Unit
  | 0, _ => throw .hang
  | fuel + 1, c =>
    if c &&& 0x08 = 0 then do
      let c ← insb commandPort
      diskWaitLoop fuel c
    else return

/-- Wait for a sector.  A disk that is not ready after as many reads of its status as it is busy for
never will be (`diskWaitLoop_stuck`). -/
def diskWait : PortM Unit := do
  let s ← get
  let c ← insb commandPort
  diskWaitLoop (s.device.busy + 1) c

/-- The inner loop of `disk_read_sector`, with `fuel` words to go. -/
def diskReadWords : Nat → Nat → PortM Unit
  | 0, _ => return
  | fuel + 1, ptr => do
    let v ← insw 0x01F0
    modify fun s => { s with mem := putU16 s.mem ptr v }
    diskReadWords fuel (ptr + 2)

/-- The outer loop of `disk_read_sector`, with `fuel` sectors to go; each moves `ptr` on by 256 words. -/
def diskReadSectors : Nat → Nat → PortM Unit
  | 0, _ => return
  | fuel + 1, ptr => do
    diskWait
    diskReadWords diskSectorWords ptr
    diskReadSectors fuel (ptr + 512)

/-- `disk_read_sector`. -/
def diskReadSector (buffer lba totalSectorsToRead : Nat) : PortM Int := do
  if totalSectorsToRead = 0 then return invalidArgument
  else
    diskInitDiskFromLba lba totalSectorsToRead
    outb commandPort readMode
    diskReadSectors totalSectorsToRead buffer
    return ok

/-- The inner loop of `disk_write_sector`. -/
def diskWriteWords : Nat → Nat → PortM Unit
  | 0, _ => return
  | fuel + 1, ptr => do
    let s ← get
    outw 0x01F0 (u16 s.mem ptr)
    diskWriteWords fuel (ptr + 2)

/-- The outer loop of `disk_write_sector`. -/
def diskWriteSectors : Nat → Nat → PortM Unit
  | 0, _ => return
  | fuel + 1, ptr => do
    diskWait
    diskWriteWords diskSectorWords ptr
    diskWriteSectors fuel (ptr + 512)

/-- `disk_write_sector`. -/
def diskWriteSector (buffer lba totalSectorsToWrite : Nat) : PortM Int := do
  if totalSectorsToWrite = 0 then return invalidArgument
  else
    diskInitDiskFromLba lba totalSectorsToWrite
    outb commandPort writeMode
    diskWriteSectors totalSectorsToWrite buffer
    return ok

/-- `disk_read_block`. -/
def diskReadBlock (disk : DiskRef) (buffer lba totalSectorsToRead : Nat) : PortM Int := do
  if disk ≠ primaryDisk then return diskInvalidDisk
  else diskReadSector buffer lba (totalSectorsToRead % 256)

/-- `disk_write_block`. -/
def diskWriteBlock (disk : DiskRef) (buffer lba totalSectorsToWrite : Nat) : PortM Int := do
  if disk ≠ primaryDisk then return diskInvalidDisk
  else diskWriteSector buffer lba (totalSectorsToWrite % 256)

/-! ## 2. Waiting -/

section

variable {m : Mem} {d : Ports.Ata}

theorem insb_status : insb commandPort ⟨m, d⟩ = .ok d.status.1 ⟨m, d.status.2⟩ := rfl

/-- A disk that is busy is waited for. -/
theorem diskWaitLoop_moving (hm : d.isMoving = true) (b : Nat) :
    (do let c ← insb commandPort; diskWaitLoop (b + 1) c) ⟨m, { d with busy := b }⟩ =
      .ok () ⟨m, d.settle⟩ := by
  obtain ⟨write, lba, left, word, hphase⟩ := Ports.Ata.exists_of_isMoving hm
  induction b with
  | zero =>
    rw [bind_of_ok insb_status, show ({ d with busy := 0 } : Ports.Ata) = d.settle from rfl,
      Ports.Ata.status_ready hphase]
    dsimp only
    rw [diskWaitLoop, if_neg (by decide)]
    rfl
  | succ b ih =>
    rw [bind_of_ok insb_status, Ports.Ata.status_busy hphase]
    dsimp only
    rw [diskWaitLoop, if_pos (by decide)]
    exact ih

/-- **A disk that does not move sectors is waited for forever**, whatever the bound of the loop is. -/
theorem diskWaitLoop_stuck (hm : d.isMoving = false) (fuel : Nat) :
    (do let c ← insb commandPort; diskWaitLoop fuel c) ⟨m, d⟩ = .error .hang ⟨m, d⟩ := by
  obtain ⟨c, hstatus, hc⟩ := Ports.Ata.status_unready hm
  induction fuel with
  | zero =>
    rw [bind_of_ok insb_status, hstatus]
    rfl
  | succ fuel ih =>
    rw [bind_of_ok insb_status, hstatus]
    dsimp only
    rw [diskWaitLoop, if_pos hc]
    exact ih

theorem diskWait_moving (hm : d.isMoving = true) : diskWait ⟨m, d⟩ = .ok () ⟨m, d.settle⟩ :=
  diskWaitLoop_moving hm d.busy

theorem diskWait_stuck (hm : d.isMoving = false) : diskWait ⟨m, d⟩ = .error .hang ⟨m, d⟩ :=
  diskWaitLoop_stuck hm _

end

/-! ## 3. Moving sectors -/

/-- The memory and the disk, while words or sectors are moved. -/
abbrev Moved := Mem × Ports.Ata

/-- The words of the inner loop are those the disk moves. -/
theorem diskReadWords_run : ∀ (fuel ptr : Nat) (s : Moved), diskReadWords fuel ptr ⟨s.1, s.2⟩ =
    .ok () ⟨(Ports.Ata.insWords fuel ptr s).1, (Ports.Ata.insWords fuel ptr s).2⟩
  | 0, _, _ => rfl
  | fuel + 1, ptr, s => diskReadWords_run fuel (ptr + 2) (putU16 s.1 ptr s.2.readData.1, s.2.readData.2)

theorem diskWriteWords_run : ∀ (fuel ptr : Nat) (s : Moved), diskWriteWords fuel ptr ⟨s.1, s.2⟩ =
    .ok () ⟨(Ports.Ata.outsWords fuel ptr s).1, (Ports.Ata.outsWords fuel ptr s).2⟩
  | 0, _, _ => rfl
  | fuel + 1, ptr, s => diskWriteWords_run fuel (ptr + 2) (s.1, s.2.writeData (u16 s.1 ptr))

/-- The program moves sectors as the disk does, and hangs when the disk never gets ready for one. -/
def Moves (m : PortM Unit) (s : Moved) : Option Moved → Prop
  | some t => m ⟨s.1, s.2⟩ = .ok () ⟨t.1, t.2⟩
  | none => ∃ s', m ⟨s.1, s.2⟩ = .error .hang s'

theorem Moves.congr {m m' : PortM Unit} {s s' : Moved} {r : Option Moved}
    (h : m ⟨s.1, s.2⟩ = m' ⟨s'.1, s'.2⟩) (hm : Moves m' s' r) : Moves m s r := by
  cases r with
  | none =>
    obtain ⟨t, ht⟩ := hm
    exact ⟨t, h.trans ht⟩
  | some t => exact h.trans hm

theorem diskReadSectors_moves (fuel : Nat) : ∀ (ptr : Nat) (s : Moved),
    Moves (diskReadSectors fuel ptr) s (Ports.Ata.insSectors fuel ptr s) := by
  induction fuel with
  | zero => exact fun _ _ => rfl
  | succ fuel ih =>
    intro ptr s
    cases hm : s.2.isMoving with
    | true =>
      have hwords := diskReadWords_run diskSectorWords ptr (s.1, s.2.settle)
      rw [Ports.Ata.insSectors, if_pos hm]
      refine Moves.congr ?_ (ih (ptr + 512) _)
      rw [diskReadSectors, bind_of_ok (diskWait_moving hm), bind_of_ok hwords]
    | false =>
      rw [Ports.Ata.insSectors, if_neg (by simp [hm]), diskReadSectors]
      exact ⟨_, bind_of_error (diskWait_stuck hm) _⟩

theorem diskWriteSectors_moves (fuel : Nat) : ∀ (ptr : Nat) (s : Moved),
    Moves (diskWriteSectors fuel ptr) s (Ports.Ata.outsSectors fuel ptr s) := by
  induction fuel with
  | zero => exact fun _ _ => rfl
  | succ fuel ih =>
    intro ptr s
    cases hm : s.2.isMoving with
    | true =>
      have hwords := diskWriteWords_run diskSectorWords ptr (s.1, s.2.settle)
      rw [Ports.Ata.outsSectors, if_pos hm]
      refine Moves.congr ?_ (ih (ptr + 512) _)
      rw [diskWriteSectors, bind_of_ok (diskWait_moving hm), bind_of_ok hwords]
    | false =>
      rw [Ports.Ata.outsSectors, if_neg (by simp [hm]), diskWriteSectors]
      exact ⟨_, bind_of_error (diskWait_stuck hm) _⟩

/-! ## 4. Commands -/

/-- The registers after `disk_init_disk_from_lba`. -/
def addressed (lba n : Nat) (d : Ports.Ata) : Ports.Ata := { d with
  drive := UInt8.ofNat (lba >>> 24 ||| 0xE0)
  sectorCount := UInt8.ofNat n
  lbaLow := UInt8.ofNat (lba &&& 0xff)
  lbaMid := UInt8.ofNat (lba >>> 8)
  lbaHigh := UInt8.ofNat (lba >>> 16) }

theorem diskInitDiskFromLba_run (lba n : Nat) (s : PortState) :
    diskInitDiskFromLba lba n s = .ok () { s with device := addressed lba n s.device } := rfl

/-- The drive register for a sector number of 28 bits: the first drive, by sector number. -/
theorem driveBits (q : Nat) (hq : q < 16) : UInt8.ofNat (q ||| 0xE0) &&& 0x10 = 0 ∧
    UInt8.ofNat (q ||| 0xE0) &&& 0x40 ≠ 0 ∧ (UInt8.ofNat (q ||| 0xE0)).toNat % 16 = q :=
  (by decide : ∀ q : Fin 16, UInt8.ofNat (q.val ||| 0xE0) &&& 0x10 = 0 ∧
    UInt8.ofNat (q.val ||| 0xE0) &&& 0x40 ≠ 0 ∧ (UInt8.ofNat (q.val ||| 0xE0)).toNat % 16 = q.val) ⟨q, hq⟩

/-- The count in the registers is the one that was asked for. -/
theorem count_addressed {n : Nat} (hn : n < 256) (hn0 : n ≠ 0) (lba : Nat) (d : Ports.Ata) :
    (addressed lba n d).count = n := by
  have hcount : (UInt8.ofNat n).toNat = n := by
    rw [UInt8.toNat_ofNat']
    omega
  have hne : UInt8.ofNat n ≠ 0 := by
    intro h
    rw [h] at hcount
    exact hn0 hcount.symm
  exact (if_neg hne).trans hcount

/-- The sector number in the registers is the one that was asked for. -/
theorem lba_addressed {lba : Nat} (hlba : lba < 2 ^ 28) (n : Nat) (d : Ports.Ata) :
    (addressed lba n d).lba = lba := by
  have hlow : (UInt8.ofNat (lba &&& 0xff)).toNat = lba % 256 := by
    rw [UInt8.toNat_ofNat', show (0xff : Nat) = 2 ^ 8 - 1 from rfl, Nat.and_two_pow_sub_one_eq_mod]
    omega
  have hdrive : (UInt8.ofNat (lba >>> 24 ||| 0xE0)).toNat % 16 = lba >>> 24 :=
    (driveBits _ (by rw [Nat.shiftRight_eq_div_pow]; omega)).2.2
  unfold Ports.Ata.lba addressed
  dsimp only
  rw [hdrive, hlow, UInt8.toNat_ofNat', UInt8.toNat_ofNat']
  simp only [Nat.shiftRight_eq_div_pow]
  omega

/-- **The disk is told what the driver was asked for.** -/
theorem command_addressed {lba n : Nat} (hlba : lba < 2 ^ 28) (hn : n < 256) (hn0 : n ≠ 0)
    (d : Ports.Ata) : (addressed lba n d).command readMode = (addressed lba n d).seek false lba n ∧
      (addressed lba n d).command writeMode = (addressed lba n d).seek true lba n := by
  obtain ⟨hfirst, hnumber, -⟩ := driveBits (lba >>> 24) (by rw [Nat.shiftRight_eq_div_pow]; omega)
  have h : (addressed lba n d).command readMode = _ ∧ (addressed lba n d).command writeMode = _ :=
    Ports.Ata.command_first hfirst hnumber
  rwa [lba_addressed hlba, count_addressed hn hn0] at h

/-! ## 5. The driver refines the disk of whole sectors -/

/-- The same memory, and the same bytes on a disk that is idle. -/
structure SameDisk (s : Sys) (t : PortState) : Prop where
  mem : t.mem = s.arena.mem
  holds : t.device.Holds s.ata.sectors s.ata.image

/-- On the same memory and disk, `m'` at the ports answers what `m` answers, and leaves the same; it
does not return when `m` does not. -/
def Refines {α : Type} (m : SysM α) (m' : PortM α) : Prop := ∀ s t, SameDisk s t →
  match m s with
  | .ok a s' => ∃ t', m' t = .ok a t' ∧ SameDisk s' t'
  | .error e _ => ∃ t', m' t = .error e t'

section

variable {lba : Nat}

theorem diskReadSector_refines (hlba : lba < 2 ^ 28) (buffer : Nat) {n : Nat} (hn : n < 256) :
    Refines (KokoOs.diskReadSector buffer lba n) (diskReadSector buffer lba n) := by
  intro s t h
  by_cases hn0 : n = 0
  · subst hn0
    exact ⟨t, rfl, h⟩
  have hstart : diskReadSector buffer lba n t =
      (do diskReadSectors n buffer; return ok) ⟨t.mem, (addressed lba n t.device).seek false lba n⟩ := by
    rw [← (command_addressed hlba hn hn0 t.device).1, diskReadSector, if_neg hn0]
    exact (bind_of_ok (diskInitDiskFromLba_run lba n t) _).trans rfl
  obtain ⟨hserved, hfails⟩ := Ports.Ata.insSectors_seek n lba buffer t.mem (addressed lba n t.device)
  have hmoves := diskReadSectors_moves n buffer (t.mem, (addressed lba n t.device).seek false lba n)
  rw [show (addressed lba n t.device).sectors = s.ata.sectors from h.holds.sectors] at hserved hfails
  rw [show (addressed lba n t.device).image = s.ata.image from h.holds.image] at hserved
  rw [hstart, KokoOs.diskReadSector, if_neg hn0, get_bind]
  by_cases hin : s.ata.sectors < lba + n
  · rw [if_pos hin]
    rw [hfails hin hn0] at hmoves
    obtain ⟨t', ht'⟩ := hmoves
    exact ⟨t', bind_of_error ht' _⟩
  · rw [if_neg hin]
    obtain ⟨d', hd', hholds⟩ := hserved (Or.inl (by omega))
    rw [hd'] at hmoves
    exact ⟨_, (bind_of_ok hmoves _).trans rfl, by rw [h.mem], hholds⟩

theorem diskWriteSector_refines (hlba : lba < 2 ^ 28) (buffer : Nat) {n : Nat} (hn : n < 256) :
    Refines (KokoOs.diskWriteSector buffer lba n) (diskWriteSector buffer lba n) := by
  intro s t h
  by_cases hn0 : n = 0
  · subst hn0
    exact ⟨t, rfl, h⟩
  have hstart : diskWriteSector buffer lba n t =
      (do diskWriteSectors n buffer; return ok) ⟨t.mem, (addressed lba n t.device).seek true lba n⟩ := by
    rw [← (command_addressed hlba hn hn0 t.device).2, diskWriteSector, if_neg hn0]
    exact (bind_of_ok (diskInitDiskFromLba_run lba n t) _).trans rfl
  obtain ⟨hserved, hfails⟩ := Ports.Ata.outsSectors_seek n lba buffer t.mem (addressed lba n t.device)
  have hmoves := diskWriteSectors_moves n buffer (t.mem, (addressed lba n t.device).seek true lba n)
  rw [show (addressed lba n t.device).sectors = s.ata.sectors from h.holds.sectors] at hserved hfails
  rw [show (addressed lba n t.device).image = s.ata.image from h.holds.image] at hserved
  rw [hstart, KokoOs.diskWriteSector, if_neg hn0, get_bind]
  by_cases hin : s.ata.sectors < lba + n
  · rw [if_pos hin]
    rw [hfails hin hn0] at hmoves
    obtain ⟨t', ht'⟩ := hmoves
    exact ⟨t', bind_of_error ht' _⟩
  · rw [if_neg hin]
    obtain ⟨d', hd', hholds⟩ := hserved (Or.inl (by omega))
    rw [hd'] at hmoves
    rw [h.mem] at hholds
    exact ⟨_, (bind_of_ok hmoves _).trans rfl, h.mem, hholds⟩

/-- **A block is read at the ports as it is read in whole sectors.** -/
theorem diskReadBlock_refines (disk : DiskRef) (hlba : lba < 2 ^ 28) (buffer n : Nat) :
    Refines (KokoOs.diskReadBlock disk buffer lba n) (diskReadBlock disk buffer lba n) := by
  unfold KokoOs.diskReadBlock diskReadBlock
  split
  · exact fun s t h => ⟨t, rfl, h⟩
  · exact diskReadSector_refines hlba buffer (Nat.mod_lt _ (by decide))

/-- **A block is written at the ports as it is written in whole sectors.** -/
theorem diskWriteBlock_refines (disk : DiskRef) (hlba : lba < 2 ^ 28) (buffer n : Nat) :
    Refines (KokoOs.diskWriteBlock disk buffer lba n) (diskWriteBlock disk buffer lba n) := by
  unfold KokoOs.diskWriteBlock diskWriteBlock
  split
  · exact fun s t h => ⟨t, rfl, h⟩
  · exact diskWriteSector_refines hlba buffer (Nat.mod_lt _ (by decide))

end

/-! ## 6. Runs -/

/-- A call of the driver with its answer.  Between two calls the memory may change. -/
inductive BlockCall where
  | read (disk : DiskRef) (buffer lba n : Nat) (code : Int)
  | write (disk : DiskRef) (buffer lba n : Nat) (code : Int)
  | client (m : Mem)

/-- The sector number of a call has no more than 28 bits. -/
def BlockCall.InRange : BlockCall → Prop
  | .read _ _ lba _ _ => lba < 2 ^ 28
  | .write _ _ lba _ _ => lba < 2 ^ 28
  | .client _ => True

/-- A call that returns, on whole sectors. -/
inductive BlockStep (s : Sys) : BlockCall → Sys → Prop
  | read {disk : DiskRef} {buffer lba n : Nat} {code : Int} {s' : Sys} :
      KokoOs.diskReadBlock disk buffer lba n s = .ok code s' → BlockStep s (.read disk buffer lba n code) s'
  | write {disk : DiskRef} {buffer lba n : Nat} {code : Int} {s' : Sys} :
      KokoOs.diskWriteBlock disk buffer lba n s = .ok code s' → BlockStep s (.write disk buffer lba n code) s'
  | client {m : Mem} : BlockStep s (.client m) { s with arena := { s.arena with mem := m } }

/-- A call that returns, at the ports. -/
inductive PortStep (t : PortState) : BlockCall → PortState → Prop
  | read {disk : DiskRef} {buffer lba n : Nat} {code : Int} {t' : PortState} :
      diskReadBlock disk buffer lba n t = .ok code t' → PortStep t (.read disk buffer lba n code) t'
  | write {disk : DiskRef} {buffer lba n : Nat} {code : Int} {t' : PortState} :
      diskWriteBlock disk buffer lba n t = .ok code t' → PortStep t (.write disk buffer lba n code) t'
  | client {m : Mem} : PortStep t (.client m) { t with mem := m }

section

variable {α : Type} {m : SysM α} {m' : PortM α} {s s' : Sys} {t t' : PortState} {a : α}

theorem Refines.forward (h : Refines m m') (hst : SameDisk s t) (hm : m s = .ok a s') :
    ∃ t', m' t = .ok a t' ∧ SameDisk s' t' := by
  have hr := h s t hst
  rwa [hm] at hr

theorem Refines.backward (h : Refines m m') (hst : SameDisk s t) (hm : m' t = .ok a t') :
    ∃ s', m s = .ok a s' ∧ SameDisk s' t' := by
  have hr := h s t hst
  cases hms : m s with
  | ok b s' =>
    rw [hms] at hr
    obtain ⟨t1, ht1, hsame⟩ := hr
    obtain ⟨rfl, rfl⟩ := EStateM.Result.ok.inj (ht1.symm.trans hm)
    exact ⟨s', rfl, hsame⟩
  | error e s' =>
    rw [hms] at hr
    obtain ⟨t1, ht1⟩ := hr
    exact absurd (ht1.symm.trans hm) (by simp)

end

/-- A call on whole sectors is answered alike at the ports. -/
theorem BlockStep.atPorts {s s' : Sys} {t : PortState} {call : BlockCall} (hst : SameDisk s t)
    (hin : call.InRange) (h : BlockStep s call s') : ∃ t', PortStep t call t' ∧ SameDisk s' t' := by
  cases h with
  | read h =>
    obtain ⟨t', ht', hsame⟩ := (diskReadBlock_refines _ hin _ _).forward hst h
    exact ⟨t', .read ht', hsame⟩
  | write h =>
    obtain ⟨t', ht', hsame⟩ := (diskWriteBlock_refines _ hin _ _).forward hst h
    exact ⟨t', .write ht', hsame⟩
  | client => exact ⟨_, .client, rfl, hst.holds⟩

/-- A call at the ports is answered alike on whole sectors. -/
theorem PortStep.onSectors {s : Sys} {t t' : PortState} {call : BlockCall} (hst : SameDisk s t)
    (hin : call.InRange) (h : PortStep t call t') : ∃ s', BlockStep s call s' ∧ SameDisk s' t' := by
  cases h with
  | read h =>
    obtain ⟨s', hs', hsame⟩ := (diskReadBlock_refines _ hin _ _).backward hst h
    exact ⟨s', .read hs', hsame⟩
  | write h =>
    obtain ⟨s', hs', hsame⟩ := (diskWriteBlock_refines _ hin _ _).backward hst h
    exact ⟨s', .write hs', hsame⟩
  | client => exact ⟨_, .client, rfl, hst.holds⟩

/-- **The driver at the ports is the disk of whole sectors**: from the same memory and disk, whatever the
delays are, each run of calls on the one is a run with the same answers on the other, and leaves the same
memory and the same disk. -/
theorem port_runs_refine {s : Sys} {t : PortState} (hst : SameDisk s t) :
    (∀ tr s', Run BlockStep s tr s' → AllSteps (fun _ call => call.InRange) tr →
      ∃ tr' t', Run PortStep t tr' t' ∧ SameDisk s' t' ∧ tr'.map Prod.snd = tr.map Prod.snd) ∧
    (∀ tr' t', Run PortStep t tr' t' → AllSteps (fun _ call => call.InRange) tr' →
      ∃ tr s', Run BlockStep s tr s' ∧ SameDisk s' t' ∧ tr.map Prod.snd = tr'.map Prod.snd) := by
  constructor
  · intro tr s' hrun hin
    exact hrun.simulates (R := SameDisk) (fun _ _ _ _ hR hc hstep => hstep.atPorts hR hc) hst hin
  · intro tr' t' hrun hin
    exact hrun.simulates (R := fun t s => SameDisk s t) (fun _ _ _ _ hR hc hstep => hstep.onSectors hR hc)
      hst hin

/-- A disk of one sector, on whole sectors. -/
def oneSector : Sys where
  arena := ⟨⟨⟨1, fun _ => 0⟩, 4096⟩, fun _ => 0⟩
  ata := ⟨1, fun _ => 7⟩
  disks _ := ⟨0, 0, 512, none, none⟩
  streams _ := ⟨0, primaryDisk⟩

/-- The same at the ports: it takes its time. -/
def oneSectorAtPorts : PortState where
  mem _ := 0
  device := ⟨1, fun _ => 7, 0, 0, 0, 0, 0, .idle, 0, fun i => i + 3⟩

/-- The memory when its sector has been read to address 64. -/
def oneSectorMem : Mem := blit (fun _ => 0) 64 (slice (fun _ => 7) (512 * 0) (512 * 1))

theorem oneSectorMem_first : oneSectorMem 64 = 7 := by
  unfold oneSectorMem
  rw [blit_of_mem ⟨Nat.le_refl _, by rw [length_slice]; decide⟩, Nat.sub_self,
    List.getD_eq_getElem _ _ (by rw [length_slice]; decide), getElem_slice]

theorem port_runs_refine_one : ∃ tr t', Run PortStep oneSectorAtPorts tr t' ∧
    tr.map Prod.snd = [.read primaryDisk 64 0 1 ok] ∧ t'.mem 64 = 7 := by
  have hread : KokoOs.diskReadBlock primaryDisk 64 0 1 oneSector =
      .ok ok ⟨⟨oneSector.arena.heap, oneSectorMem⟩, oneSector.ata, oneSector.disks, oneSector.streams⟩ := rfl
  obtain ⟨tr', t', hrun, hsame, hlabels⟩ := (port_runs_refine (s := oneSector) (t := oneSectorAtPorts)
    ⟨rfl, rfl, rfl, rfl⟩).1 _ _ (Run.single (.read hread)) (fun p hp => by
      rw [List.mem_singleton.mp hp]
      exact Nat.zero_lt_of_lt (by decide : 0 < 2 ^ 28))
  have hmem : t'.mem = oneSectorMem := hsame.mem
  exact ⟨tr', t', hrun, hlabels, hmem ▸ oneSectorMem_first⟩

end KokoOs.AtPorts
