/-
# Ports, and an ATA disk behind them

A machine talks to its devices through numbered ports.  `PortMap` is what a device does there, and
`Ata` is one such device: a disk in PIO mode, with sectors of 512 bytes and 28-bit sector numbers.  A
command takes the sector number and the count out of the registers, and the sectors are then moved word
by word through the data port.  Before each of them the device is busy for as long as it likes
(`delay`), and says so when its status is read; for a sector it does not have it never gets ready.

* **A sector.**  `insWords` and `outsWords` move words out of the data port and into it; 256 of them
  are the sector at hand (`insWords_sector`, `outsWords_sector`).
* **Waiting.**  A disk that is busy says so, and is so once less often (`status_busy`); one that moves
  nothing never says that it is ready (`status_unready`).
* **A command.**  `insSectors` and `outsSectors` move whole sectors, waiting for each of them.
  `insSectors_seek` and `outsSectors_seek` say what becomes of a command to read or write that is served
  so: all of its sectors arrive, or the disk never gets ready for one.

A driver in C and one in machine code are both checked against these two functions.
-/
import KokoOs.Lib.Bytes

namespace Ports

open Bytes

/-- What reads and writes of a port do.  Bytes are `UInt8`, words are numbers below `2 ^ 16`. -/
structure PortMap (δ : Type) where
  inb : Nat → δ → UInt8 × δ
  inw : Nat → δ → Nat × δ
  outb : Nat → UInt8 → δ → δ
  outw : Nat → Nat → δ → δ

/-! ## 1. The disk -/

/-- What the disk is doing: nothing; nothing that will ever come to an end; or moving sectors, `write`
telling the direction: `left` of them with the one at hand, `word` words of which have been moved. -/
inductive Phase where
  | idle
  | stuck
  | moving (write : Bool) (lba left word : Nat)

/-- A disk with its registers.  `busy` is how often the status will be read before the sector at hand is
ready, and `delay` the same for the sectors to come. -/
structure Ata where
  sectors : Nat
  image : Mem
  sectorCount : UInt8
  lbaLow : UInt8
  lbaMid : UInt8
  lbaHigh : UInt8
  drive : UInt8
  phase : Phase
  busy : Nat
  delay : Nat → Nat

namespace Ata

/-- The sector number in the registers. -/
def lba (d : Ata) : Nat :=
  d.lbaLow.toNat + 256 * d.lbaMid.toNat + 65536 * d.lbaHigh.toNat + 16777216 * (d.drive.toNat % 16)

/-- The count in the register, where 0 stands for 256. -/
def count (d : Ata) : Nat := if d.sectorCount = 0 then 256 else d.sectorCount.toNat

def setPhase (phase : Phase) (d : Ata) : Ata := { d with phase }

def setImage (image : Mem) (d : Ata) : Ata := { d with image }

/-- Go on with sector `lba`, when `left` are to be moved. -/
def seek (write : Bool) (lba left : Nat) (d : Ata) : Ata :=
  if left = 0 then d.setPhase .idle
  else if lba < d.sectors then
    { d with phase := .moving write lba left 0, busy := d.delay 0, delay := fun i => d.delay (i + 1) }
  else d.setPhase .stuck

/-- A command.  There is no second drive, and commands other than those to read and to write sectors,
and those that do not give the sector by its number, are not carried out. -/
def command (c : UInt8) (d : Ata) : Ata :=
  if d.drive &&& 0x10 ≠ 0 ∨ d.drive &&& 0x40 = 0 then d.setPhase .stuck
  else if c = 0x20 then d.seek false d.lba d.count
  else if c = 0x30 then d.seek true d.lba d.count
  else d.setPhase .stuck

/-- The status.  Bit 3 says that a word can be moved. -/
def status (d : Ata) : UInt8 × Ata :=
  match d.phase with
  | .idle => (0x50, d)
  | .stuck => (0x51, d)
  | .moving _ _ _ _ => if d.busy = 0 then (0x58, d) else (0x80, { d with busy := d.busy - 1 })

/-- A word of the sector at hand has been moved. -/
def advance (write : Bool) (lba left word : Nat) (d : Ata) : Ata :=
  if word + 1 < 256 then d.setPhase (.moving write lba left (word + 1))
  else d.seek write (lba + 1) (left - 1)

/-- A word is taken out of the data port. -/
def readData (d : Ata) : Nat × Ata :=
  match d.phase with
  | .moving false lba left word =>
    if d.busy = 0 then (u16 d.image (512 * lba + 2 * word), d.advance false lba left word)
    else (0xffff, d)
  | _ => (0xffff, d)

/-- A word is put into it. -/
def writeData (v : Nat) (d : Ata) : Ata :=
  match d.phase with
  | .moving true lba left word =>
    if d.busy = 0 then
      (d.setImage (putU16 d.image (512 * lba + 2 * word) v)).advance true lba left word
    else d
  | _ => d

/-- The disk at the ports of the first channel. -/
def ports : PortMap Ata where
  inb port d := if port = 0x1F7 then d.status else (0, d)
  inw port d := if port = 0x1F0 then d.readData else (0, d)
  outb port v d :=
    if port = 0x1F2 then { d with sectorCount := v }
    else if port = 0x1F3 then { d with lbaLow := v }
    else if port = 0x1F4 then { d with lbaMid := v }
    else if port = 0x1F5 then { d with lbaHigh := v }
    else if port = 0x1F6 then { d with drive := v }
    else if port = 0x1F7 then d.command v
    else d
  outw port v d := if port = 0x1F0 then d.writeData v else d

/-! ## 2. Moving a sector -/

variable {d : Ata} {write : Bool} {lba left word : Nat}

@[simp] theorem setPhase_busy (phase : Phase) : (d.setPhase phase).busy = d.busy := rfl
@[simp] theorem setPhase_image (phase : Phase) : (d.setPhase phase).image = d.image := rfl
@[simp] theorem setPhase_phase (phase : Phase) : (d.setPhase phase).phase = phase := rfl
@[simp] theorem setImage_busy (image : Mem) : (d.setImage image).busy = d.busy := rfl
@[simp] theorem setImage_image (image : Mem) : (d.setImage image).image = image := rfl
@[simp] theorem setImage_sectors (image : Mem) : (d.setImage image).sectors = d.sectors := rfl
@[simp] theorem setPhase_setPhase (phase phase' : Phase) :
    (d.setPhase phase').setPhase phase = d.setPhase phase := rfl
@[simp] theorem setPhase_self : d.setPhase d.phase = d := rfl
@[simp] theorem setImage_setImage (image image' : Mem) :
    (d.setImage image').setImage image = d.setImage image := rfl
@[simp] theorem setImage_setPhase (image : Mem) (phase : Phase) :
    (d.setPhase phase).setImage image = (d.setImage image).setPhase phase := rfl

/-- What the disk was doing does not matter for what it does next. -/
@[simp] theorem seek_setPhase (phase : Phase) :
    (d.setPhase phase).seek write lba left = d.seek write lba left := by
  simp only [seek, setPhase_setPhase]
  rfl

/-- Commands to the first drive that give the sector by its number are carried out. -/
theorem command_first (hdrive : d.drive &&& 0x10 = 0) (hlba : d.drive &&& 0x40 ≠ 0) :
    d.command 0x20 = d.seek false d.lba d.count ∧ d.command 0x30 = d.seek true d.lba d.count := by
  have hnot : ¬ (d.drive &&& 0x10 ≠ 0 ∨ d.drive &&& 0x40 = 0) := fun h => h.elim (· hdrive) hlba
  unfold command
  rw [if_neg hnot, if_pos rfl, if_neg hnot, if_neg (by decide), if_pos rfl]
  exact ⟨rfl, rfl⟩

/-- Words are taken out of the data port, and stored from `ptr` on. -/
def insWords : Nat → Nat → Mem × Ata → Mem × Ata
  | 0, _, s => s
  | fuel + 1, ptr, s => insWords fuel (ptr + 2) (putU16 s.1 ptr s.2.readData.1, s.2.readData.2)

/-- The words from `ptr` on are put into it. -/
def outsWords : Nat → Nat → Mem × Ata → Mem × Ata
  | 0, _, s => s
  | fuel + 1, ptr, s => outsWords fuel (ptr + 2) (s.1, s.2.writeData (u16 s.1 ptr))

/-- The last words of a sector are read, and the disk goes on with the next one. -/
theorem insWords_rest (lba left : Nat) (hbusy : d.busy = 0) : ∀ (k : Nat) {word : Nat} (ptr : Nat) (m : Mem),
    word + (k + 1) = 256 →
    insWords (k + 1) ptr (m, d.setPhase (.moving false lba left word)) =
      (blit m ptr (slice d.image (512 * lba + 2 * word) (2 * (k + 1))), d.seek false (lba + 1) (left - 1)) := by
  intro k
  induction k with
  | zero =>
    intro word ptr m hk
    simp only [insWords, readData, setPhase_phase, setPhase_busy, hbusy, if_pos, setPhase_image, advance,
      seek_setPhase, putU16, bytes16_u16]
    rw [if_neg (by omega)]
  | succ k ih =>
    intro word ptr m hk
    rw [insWords]
    simp only [readData, setPhase_phase, setPhase_busy, hbusy, if_pos, setPhase_image, advance,
      setPhase_setPhase, putU16, bytes16_u16]
    rw [if_pos (by omega), ih _ _ (by omega), show 2 * (k + 1 + 1) = 2 + 2 * (k + 1) by omega, slice_add,
      blit_append, length_slice]
    rfl

/-- The last words of a sector are written. -/
theorem outsWords_rest (lba left : Nat) (m : Mem) : ∀ (k : Nat) {word : Nat} (ptr : Nat) {d : Ata},
    d.busy = 0 → word + (k + 1) = 256 →
    outsWords (k + 1) ptr (m, d.setPhase (.moving true lba left word)) =
      (m, (d.setImage (blit d.image (512 * lba + 2 * word) (slice m ptr (2 * (k + 1))))).seek true
        (lba + 1) (left - 1)) := by
  intro k
  induction k with
  | zero =>
    intro word ptr d hbusy hk
    simp only [outsWords, writeData, setPhase_phase, setPhase_busy, hbusy, if_pos, setPhase_image,
      setImage_setPhase, advance, seek_setPhase, putU16, bytes16_u16]
    rw [if_neg (by omega)]
  | succ k ih =>
    intro word ptr d hbusy hk
    rw [outsWords]
    simp only [writeData, setPhase_phase, setPhase_busy, hbusy, if_pos, setPhase_image,
      setImage_setPhase, advance, setPhase_setPhase, putU16, bytes16_u16]
    rw [if_pos (by omega), ih _ (by simpa using hbusy) (by omega), setImage_setImage, setImage_image,
      show 2 * (k + 1 + 1) = 2 + 2 * (k + 1) by omega, slice_add m, blit_append, length_slice]
    rfl

/-- **256 words out of the data port are the sector at hand.** -/
theorem insWords_sector (ptr : Nat) (m : Mem) (hphase : d.phase = .moving false lba left 0)
    (hbusy : d.busy = 0) : insWords 256 ptr (m, d) =
      (blit m ptr (slice d.image (512 * lba) 512), d.seek false (lba + 1) (left - 1)) := by
  have h := insWords_rest lba left hbusy 255 ptr m (Nat.zero_add _)
  rwa [← hphase] at h

/-- **256 words into the data port become the sector at hand.** -/
theorem outsWords_sector (ptr : Nat) (m : Mem) (hphase : d.phase = .moving true lba left 0)
    (hbusy : d.busy = 0) : outsWords 256 ptr (m, d) =
      (m, (d.setImage (blit d.image (512 * lba) (slice m ptr 512))).seek true (lba + 1) (left - 1)) := by
  have h := outsWords_rest lba left m 255 ptr hbusy (Nat.zero_add _)
  rwa [← hphase] at h

/-! ## 3. Moving all sectors of a command -/

/-- The disk when the sector at hand has become ready. -/
def settle (d : Ata) : Ata := { d with busy := 0 }

@[simp] theorem settle_busy : d.settle.busy = 0 := rfl
@[simp] theorem settle_phase : d.settle.phase = d.phase := rfl
@[simp] theorem settle_image : d.settle.image = d.image := rfl
@[simp] theorem settle_sectors : d.settle.sectors = d.sectors := rfl

/-- A disk that is ready says so. -/
theorem status_ready (hphase : d.phase = .moving write lba left word) :
    d.settle.status = (0x58, d.settle) := by
  simp [status, hphase]

/-- A disk that is busy says so, and is so once less often. -/
theorem status_busy {b : Nat} (hphase : d.phase = .moving write lba left word) :
    ({ d with busy := b + 1 } : Ata).status = (0x80, { d with busy := b }) := by
  simp [status, hphase]

/-- A sector will be ready. -/
def isMoving (d : Ata) : Bool :=
  match d.phase with
  | .moving _ _ _ _ => true
  | _ => false

theorem exists_of_isMoving (h : d.isMoving = true) :
    ∃ write lba left word, d.phase = .moving write lba left word := by
  unfold isMoving at h
  split at h
  · exact ⟨_, _, _, _, by assumption⟩
  · cases h

/-- A disk that moves nothing never says that it is ready, and stays as it is. -/
theorem status_unready (h : d.isMoving = false) : ∃ c, d.status = (c, d) ∧ c &&& 0x08 = 0 := by
  unfold isMoving at h
  cases hphase : d.phase with
  | idle => exact ⟨0x50, by simp [status, hphase], by decide⟩
  | stuck => exact ⟨0x51, by simp [status, hphase], by decide⟩
  | moving => simp [hphase] at h

/-- `n` sectors are taken out of the data port, each when it is ready; `none` if one never is. -/
def insSectors : Nat → Nat → Mem × Ata → Option (Mem × Ata)
  | 0, _, s => some s
  | n + 1, ptr, s =>
    if s.2.isMoving then insSectors n (ptr + 512) (insWords 256 ptr (s.1, s.2.settle)) else none

/-- `n` sectors are put into it. -/
def outsSectors : Nat → Nat → Mem × Ata → Option (Mem × Ata)
  | 0, _, s => some s
  | n + 1, ptr, s =>
    if s.2.isMoving then outsSectors n (ptr + 512) (outsWords 256 ptr (s.1, s.2.settle)) else none

/-- The disk is idle, and has these sectors with these bytes. -/
structure Holds (d : Ata) (sectors : Nat) (image : Mem) : Prop where
  idle : d.phase = .idle
  sectors : d.sectors = sectors
  image : d.image = image

/-- Sector `lba` of the disk `d` is ready, the first of `left`. -/
structure AtSector (d e : Ata) (write : Bool) (lba left : Nat) : Prop where
  phase : e.phase = .moving write lba left 0
  busy : e.busy = 0
  sectors : e.sectors = d.sectors
  image : e.image = d.image

theorem seek_atSector (write : Bool) (hleft : left ≠ 0) (h : lba < d.sectors) :
    (d.seek write lba left).isMoving = true ∧ AtSector d (d.seek write lba left).settle write lba left := by
  rw [seek, if_neg hleft, if_pos h]
  exact ⟨rfl, rfl, rfl, rfl, rfl⟩

theorem seek_stuck (hleft : left ≠ 0) (h : d.sectors ≤ lba) : (d.seek write lba left).isMoving = false := by
  rw [seek, if_neg hleft, if_neg (Nat.not_lt.mpr h)]
  rfl

/-- **A command to read**: all sectors arrive, or the disk never gets ready for one. -/
theorem insSectors_seek (n : Nat) : ∀ (lba ptr : Nat) (m : Mem) (d : Ata),
    (lba + n ≤ d.sectors ∨ n = 0 → ∃ d', insSectors n ptr (m, d.seek false lba n) =
      some (blit m ptr (slice d.image (512 * lba) (512 * n)), d') ∧ d'.Holds d.sectors d.image) ∧
    (d.sectors < lba + n → n ≠ 0 → insSectors n ptr (m, d.seek false lba n) = none) := by
  induction n with
  | zero =>
    intro lba ptr m d
    refine ⟨fun _ => ⟨d.setPhase .idle, ?_, rfl, rfl, rfl⟩, fun _ h => absurd rfl h⟩
    rw [insSectors, seek, if_pos rfl]
    congr
    exact (blit_nil m ptr).symm
  | succ n ih =>
    intro lba ptr m d
    rw [insSectors]
    by_cases hlt : lba < d.sectors
    · obtain ⟨hmoving, hat⟩ := seek_atSector false (show n + 1 ≠ 0 by omega) hlt
      rw [if_pos hmoving, insWords_sector _ _ hat.phase hat.busy, hat.image, Nat.add_sub_cancel]
      obtain ⟨hserved, hfails⟩ := ih (lba + 1) (ptr + 512)
        (blit m ptr (slice d.image (512 * lba) 512)) (d.seek false lba (n + 1)).settle
      rw [hat.sectors, hat.image] at hserved
      rw [hat.sectors] at hfails
      refine ⟨fun h => ?_, fun h _ => hfails (by omega) (by omega)⟩
      obtain ⟨d', hd', hholds⟩ := hserved (by omega)
      refine ⟨d', hd'.trans ?_, hholds⟩
      rw [show 512 * (n + 1) = 512 + 512 * n by omega, slice_add, blit_append, length_slice]
      rfl
    · refine ⟨fun h => absurd h (by omega), fun _ _ => if_neg ?_⟩
      rw [seek_stuck (show n + 1 ≠ 0 by omega) (by omega)]
      exact Bool.false_ne_true

/-- **A command to write.** -/
theorem outsSectors_seek (n : Nat) : ∀ (lba ptr : Nat) (m : Mem) (d : Ata),
    (lba + n ≤ d.sectors ∨ n = 0 → ∃ d', outsSectors n ptr (m, d.seek true lba n) = some (m, d') ∧
      d'.Holds d.sectors (blit d.image (512 * lba) (slice m ptr (512 * n)))) ∧
    (d.sectors < lba + n → n ≠ 0 → outsSectors n ptr (m, d.seek true lba n) = none) := by
  induction n with
  | zero =>
    intro lba ptr m d
    refine ⟨fun _ => ⟨d.setPhase .idle, ?_, rfl, rfl, (blit_nil _ _).symm⟩, fun _ h => absurd rfl h⟩
    rw [outsSectors, seek, if_pos rfl]
  | succ n ih =>
    intro lba ptr m d
    rw [outsSectors]
    by_cases hlt : lba < d.sectors
    · obtain ⟨hmoving, hat⟩ := seek_atSector true (show n + 1 ≠ 0 by omega) hlt
      rw [if_pos hmoving, outsWords_sector _ _ hat.phase hat.busy, hat.image, Nat.add_sub_cancel]
      obtain ⟨hserved, hfails⟩ := ih (lba + 1) (ptr + 512) m
        ((d.seek true lba (n + 1)).settle.setImage (blit d.image (512 * lba) (slice m ptr 512)))
      rw [setImage_sectors, hat.sectors, setImage_image] at hserved
      rw [setImage_sectors, hat.sectors] at hfails
      refine ⟨fun h => ?_, fun h _ => hfails (by omega) (by omega)⟩
      obtain ⟨d', hd', hholds⟩ := hserved (by omega)
      refine ⟨d', hd', ?_⟩
      rw [show 512 * (n + 1) = 512 + 512 * n by omega, slice_add m, blit_append, length_slice]
      exact hholds
    · refine ⟨fun h => absurd h (by omega), fun _ _ => if_neg ?_⟩
      rw [seek_stuck (show n + 1 ≠ 0 by omega) (by omega)]
      exact Bool.false_ne_true

end Ata

end Ports
