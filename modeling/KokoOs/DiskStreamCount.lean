/-
# How many sectors a stream transfers

The stream layer counts the sectors of a request in 32 bits, and hands the count on as a `uint8_t`.
The device is asked for what is left of it, and refuses only if that is 0.

The sectors that are transferred leave no trace in the state, so versions of the functions log them, one
by one.  The logged versions are the functions, with the log thrown away
(`diskStreamReadLogged_erases`, `diskStreamWriteLogged_erases`), and a call that returns has logged
the sectors of the count that was left (`streamRead_transferred`, `streamWrite_transferred`).

* **Calls that return.**  A call of a length is counted as it should be if its sectors are at most 255, or
  come to 0 in eight bits, when it is refused (`CountCarried`).
* **All calls.**  A length that is larger than the whole heap never gets its local buffer, so no call with
  it returns; these lengths are served as well (`CountServed`).

`diskStream_counted_iff` says both, of every read and every write, whatever the heap holds and wherever
the sectors are.  The first length that goes wrong is 131073 (`count_truncated`).
-/
import KokoOs.DiskStreamRefine
import KokoOs.Lib.Logged

namespace KokoOs

open Bytes Prog

/-! ## 1. The transfers -/

/-- A sector that the device has been read from, or written to. -/
inductive SectorTransfer where
  | read (sector : Nat)
  | write (sector : Nat)
  deriving DecidableEq

/-- Programs of the kernel that log the sectors they transfer. -/
abbrev LoggedSysM := EStateM Halt (Sys × List SectorTransfer)

/-- The sectors of a read, in order. -/
def readSectors (lba total : Nat) : List SectorTransfer := (List.range' lba total).map .read

/-- The sectors of a write. -/
def writeSectors (lba total : Nat) : List SectorTransfer := (List.range' lba total).map .write

/-- `disk_read_sector`, with its transfers. -/
def diskReadSectorLogged (buffer lba totalSectorsToRead : Nat) : LoggedSysM Int := do
  if totalSectorsToRead = 0 then return invalidArgument
  else
    let s ← get
    if s.1.ata.sectors < lba + totalSectorsToRead then throw .hang
    else
      recordAll (readSectors lba totalSectorsToRead)
      unlogged (storeMem fun m =>
        blit m buffer (slice s.1.ata.image (512 * lba) (512 * totalSectorsToRead)))
      return ok

/-- `disk_write_sector`, with its transfers. -/
def diskWriteSectorLogged (buffer lba totalSectorsToWrite : Nat) : LoggedSysM Int := do
  if totalSectorsToWrite = 0 then return invalidArgument
  else
    let s ← get
    if s.1.ata.sectors < lba + totalSectorsToWrite then throw .hang
    else
      recordAll (writeSectors lba totalSectorsToWrite)
      let image := blit s.1.ata.image (512 * lba)
        (slice s.1.arena.mem buffer (512 * totalSectorsToWrite))
      unlogged (set { s.1 with ata := { s.1.ata with image } })
      return ok

/-- `disk_read_block`. -/
def diskReadBlockLogged (disk : DiskRef) (buffer lba totalSectorsToRead : Nat) : LoggedSysM Int := do
  if disk ≠ primaryDisk then return diskInvalidDisk
  else diskReadSectorLogged buffer lba (totalSectorsToRead % 256)

/-- `disk_write_block`. -/
def diskWriteBlockLogged (disk : DiskRef) (buffer lba totalSectorsToWrite : Nat) : LoggedSysM Int := do
  if disk ≠ primaryDisk then return diskInvalidDisk
  else diskWriteSectorLogged buffer lba (totalSectorsToWrite % 256)

/-- `disk_stream_read`. -/
def diskStreamReadLogged (stream buffer totalBytes : Nat) : LoggedSysM Int := do
  if totalBytes = 0 then return invalidArgument
  else
    let s ← get
    let st := s.1.streams stream
    let sectorsRequiredToRead := diskStreamGetAffectedSectors totalBytes
    let sector := st.pos / kernelDefaultDiskSectorSize
    let localBuffer ← unlogged (Sys.malloc (localBufferSize totalBytes))
    let res ← diskReadBlockLogged st.disk localBuffer sector sectorsRequiredToRead
    if res ≠ ok then
      unlogged (Sys.free localBuffer)
      return invalidArgument
    else
      unlogged (storeMem (copyFromLocal buffer localBuffer st.pos totalBytes 0))
      unlogged (setStream stream fun st => { st with pos := (st.pos + totalBytes) % 2 ^ 32 })
      unlogged (Sys.free localBuffer)
      return ok

/-- `disk_stream_write`. -/
def diskStreamWriteLogged (stream buffer totalBytes : Nat) : LoggedSysM Int := do
  if totalBytes = 0 then return invalidArgument
  else
    let s ← get
    let st := s.1.streams stream
    let totalSectors := diskStreamGetAffectedSectors totalBytes
    let sector := st.pos / kernelDefaultDiskSectorSize
    let localBuffer ← unlogged (Sys.malloc (localBufferSize totalBytes))
    let res ← diskReadBlockLogged st.disk localBuffer sector totalSectors
    if res ≠ ok then
      unlogged (Sys.free localBuffer)
      return invalidArgument
    else
      unlogged (storeMem (copyToLocal buffer localBuffer st.pos totalBytes 0))
      let res ← diskWriteBlockLogged st.disk localBuffer sector totalSectors
      if res ≠ ok then
        unlogged (Sys.free localBuffer)
        return diskFailToWriteStream
      else
        unlogged (setStream stream fun st => { st with pos := (st.pos + totalBytes) % 2 ^ 32 })
        unlogged (Sys.free localBuffer)
        return ok

/-! ## 2. The logged versions are the functions -/

theorem diskReadSectorLogged_erases (buffer lba total : Nat) :
    Erases (diskReadSectorLogged buffer lba total) (diskReadSector buffer lba total) := by
  intro s
  refine ErasesAt.ite (ErasesAt.pure _) (ErasesAt.get_plain (ErasesAt.get_logged fun log => ?_))
  refine ErasesAt.ite (ErasesAt.throw _) (ErasesAt.recordAll ?_)
  exact ErasesAt.bind (ErasesAt.unlogged _) fun _ t _ => ErasesAt.pure _

theorem diskWriteSectorLogged_erases (buffer lba total : Nat) :
    Erases (diskWriteSectorLogged buffer lba total) (diskWriteSector buffer lba total) := by
  intro s
  refine ErasesAt.ite (ErasesAt.pure _) (ErasesAt.get_plain (ErasesAt.get_logged fun log => ?_))
  refine ErasesAt.ite (ErasesAt.throw _) (ErasesAt.recordAll ?_)
  exact ErasesAt.bind (ErasesAt.unlogged _) fun _ t _ => ErasesAt.pure _

theorem diskReadBlockLogged_erases (disk : DiskRef) (buffer lba total : Nat) :
    Erases (diskReadBlockLogged disk buffer lba total) (diskReadBlock disk buffer lba total) :=
  fun s => ErasesAt.ite (ErasesAt.pure _) (diskReadSectorLogged_erases _ _ _ s)

theorem diskWriteBlockLogged_erases (disk : DiskRef) (buffer lba total : Nat) :
    Erases (diskWriteBlockLogged disk buffer lba total) (diskWriteBlock disk buffer lba total) :=
  fun s => ErasesAt.ite (ErasesAt.pure _) (diskWriteSectorLogged_erases _ _ _ s)

theorem diskStreamReadLogged_erases (stream buffer n : Nat) :
    Erases (diskStreamReadLogged stream buffer n) (diskStreamRead stream buffer n) := by
  intro s
  refine ErasesAt.ite (ErasesAt.pure _) (ErasesAt.get_plain (ErasesAt.get_logged fun log => ?_))
  refine ErasesAt.bind (ErasesAt.unlogged _) fun localBuffer s1 _ => ?_
  refine ErasesAt.bind (diskReadBlockLogged_erases _ _ _ _ s1) fun res s2 _ => ?_
  refine ErasesAt.ite ?_ ?_
  · exact ErasesAt.bind (ErasesAt.unlogged _) fun _ _ _ => ErasesAt.pure _
  · refine ErasesAt.bind (ErasesAt.unlogged _) fun _ s3 _ => ?_
    refine ErasesAt.bind (ErasesAt.unlogged _) fun _ s4 _ => ?_
    exact ErasesAt.bind (ErasesAt.unlogged _) fun _ _ _ => ErasesAt.pure _

theorem diskStreamWriteLogged_erases (stream buffer n : Nat) :
    Erases (diskStreamWriteLogged stream buffer n) (diskStreamWrite stream buffer n) := by
  intro s
  refine ErasesAt.ite (ErasesAt.pure _) (ErasesAt.get_plain (ErasesAt.get_logged fun log => ?_))
  refine ErasesAt.bind (ErasesAt.unlogged _) fun localBuffer s1 _ => ?_
  refine ErasesAt.bind (diskReadBlockLogged_erases _ _ _ _ s1) fun res s2 _ => ?_
  refine ErasesAt.ite ?_ ?_
  · exact ErasesAt.bind (ErasesAt.unlogged _) fun _ _ _ => ErasesAt.pure _
  · refine ErasesAt.bind (ErasesAt.unlogged _) fun _ s3 _ => ?_
    refine ErasesAt.bind (diskWriteBlockLogged_erases _ _ _ _ s3) fun res s4 _ => ?_
    refine ErasesAt.ite ?_ ?_
    · exact ErasesAt.bind (ErasesAt.unlogged _) fun _ _ _ => ErasesAt.pure _
    · refine ErasesAt.bind (ErasesAt.unlogged _) fun _ s5 _ => ?_
      exact ErasesAt.bind (ErasesAt.unlogged _) fun _ _ _ => ErasesAt.pure _

/-! ## 3. What is transferred -/

/-- What a block transfer of `total` sectors has logged when it returns: the sectors `ts` of the count
that is left in eight bits, if that is not 0. -/
def BlockTransferred (total : Nat) (ts : Nat → List SectorTransfer) (res : Int)
    (log log' : List SectorTransfer) : Prop :=
  (total % 256 = 0 ∧ res ≠ ok ∧ log' = log) ∨
    (total % 256 ≠ 0 ∧ res = ok ∧ log' = log ++ ts (total % 256))

/-- A transfer that returns has logged its sectors. -/
theorem transfer_runs {refused : Sys × List SectorTransfer → Prop} [DecidablePred refused]
    {m : Sys × List SectorTransfer → SysM PUnit} {ts : List SectorTransfer}
    (t : Sys × List SectorTransfer) : Runs (fun _ => True) (do
      let s ← get
      if refused s then throw .hang
      else
        recordAll ts
        unlogged (m s)
        return ok : LoggedSysM Int) t fun res t' => res = ok ∧ t'.2 = t.2 ++ ts := by
  refine Runs.get_bind ?_
  split
  · exact Runs.throw trivial
  · refine Runs.bind (Runs.modify (Q := fun _ t' => t'.2 = t.2 ++ ts) rfl) fun _ t1 h1 => ?_
    refine Runs.bind Runs.unlogged fun _ t2 h2 => ?_
    exact Runs.pure ⟨rfl, h2.trans h1⟩

theorem diskReadBlockLogged_runs (buffer lba total : Nat) (t : Sys × List SectorTransfer) :
    Runs (fun _ => True) (diskReadBlockLogged primaryDisk buffer lba total) t fun res t' =>
      BlockTransferred total (readSectors lba) res t.2 t'.2 := by
  unfold diskReadBlockLogged diskReadSectorLogged
  rw [if_neg (by decide)]
  by_cases h0 : total % 256 = 0
  · rw [if_pos h0]
    exact Runs.pure (Or.inl ⟨h0, by decide, rfl⟩)
  · rw [if_neg h0]
    refine Runs.mono (transfer_runs t) fun res t' h => ?_
    exact Or.inr ⟨h0, h⟩

theorem diskWriteBlockLogged_runs (buffer lba total : Nat) (t : Sys × List SectorTransfer) :
    Runs (fun _ => True) (diskWriteBlockLogged primaryDisk buffer lba total) t fun res t' =>
      BlockTransferred total (writeSectors lba) res t.2 t'.2 := by
  unfold diskWriteBlockLogged diskWriteSectorLogged
  rw [if_neg (by decide)]
  by_cases h0 : total % 256 = 0
  · rw [if_pos h0]
    exact Runs.pure (Or.inl ⟨h0, by decide, rfl⟩)
  · rw [if_neg h0]
    refine Runs.mono (transfer_runs t) fun res t' h => ?_
    exact Or.inr ⟨h0, h⟩

/-- The sectors a call of `disk_stream_read` transfers. -/
def streamReadTransfers (s : Sys) (stream buffer n : Nat) : List SectorTransfer :=
  logOf (diskStreamReadLogged stream buffer n) s

/-- The sectors a call of `disk_stream_write` transfers. -/
def streamWriteTransfers (s : Sys) (stream buffer n : Nat) : List SectorTransfer :=
  logOf (diskStreamWriteLogged stream buffer n) s

/-- The transfers of a request for `n` bytes at `pos`: none if it is refused. -/
def Transferred (pos n : Nat) (ts : Nat → Nat → List SectorTransfer) (code : Int)
    (log : List SectorTransfer) : Prop :=
  BlockTransferred (diskStreamGetAffectedSectors n) (ts (pos / 512)) code [] log

section

variable {s s' : Sys} {stream buffer n : Nat} {code : Int}

/-- **What a read that returns has transferred.** -/
theorem streamRead_transferred (h0 : n ≠ 0) (hd : (s.streams stream).disk = primaryDisk)
    (h : diskStreamRead stream buffer n s = .ok code s') :
    Transferred (s.streams stream).pos n readSectors code (streamReadTransfers s stream buffer n) := by
  have hruns : Runs (fun _ => True) (diskStreamReadLogged stream buffer n) (s, []) fun code t =>
      Transferred (s.streams stream).pos n readSectors code t.2 := by
    unfold diskStreamReadLogged
    rw [if_neg h0]
    refine Runs.get_bind ?_
    dsimp only
    rw [hd]
    refine Runs.bind Runs.unlogged fun localBuffer t1 h1 => ?_
    refine Runs.bind (diskReadBlockLogged_runs _ _ _ _) fun res t2 h2 => ?_
    rw [h1] at h2
    rcases h2 with ⟨hc, hres, hlog⟩ | ⟨hc, rfl, hlog⟩
    · rw [if_pos hres]
      refine Runs.bind Runs.unlogged fun _ t3 h3 => Runs.pure (Or.inl ⟨hc, by decide, ?_⟩)
      exact h3.trans hlog
    · rw [if_neg (by simp)]
      refine Runs.bind Runs.unlogged fun _ t3 h3 => ?_
      refine Runs.bind Runs.unlogged fun _ t4 h4 => ?_
      refine Runs.bind Runs.unlogged fun _ t5 h5 => Runs.pure (Or.inr ⟨hc, rfl, ?_⟩)
      exact h5.trans (h4.trans (h3.trans hlog))
  obtain ⟨log, hlogged⟩ := (diskStreamReadLogged_erases stream buffer n).returns h []
  unfold streamReadTransfers logOf
  rw [hlogged]
  exact hruns.value hlogged

/-- **What a write that returns has transferred**: the sectors are read before they are written. -/
theorem streamWrite_transferred (h0 : n ≠ 0) (hd : (s.streams stream).disk = primaryDisk)
    (h : diskStreamWrite stream buffer n s = .ok code s') :
    Transferred (s.streams stream).pos n (fun lba total => readSectors lba total ++ writeSectors lba total)
      code (streamWriteTransfers s stream buffer n) := by
  have hruns : Runs (fun _ => True) (diskStreamWriteLogged stream buffer n) (s, []) fun code t =>
      Transferred (s.streams stream).pos n
        (fun lba total => readSectors lba total ++ writeSectors lba total) code t.2 := by
    unfold diskStreamWriteLogged
    rw [if_neg h0]
    refine Runs.get_bind ?_
    dsimp only
    rw [hd]
    refine Runs.bind Runs.unlogged fun localBuffer t1 h1 => ?_
    refine Runs.bind (diskReadBlockLogged_runs _ _ _ _) fun res t2 h2 => ?_
    rw [h1] at h2
    rcases h2 with ⟨hc, hres, hlog⟩ | ⟨hc, rfl, hlog⟩
    · rw [if_pos hres]
      refine Runs.bind Runs.unlogged fun _ t3 h3 => Runs.pure (Or.inl ⟨hc, by decide, ?_⟩)
      exact h3.trans hlog
    · rw [if_neg (by simp)]
      refine Runs.bind Runs.unlogged fun _ t3 h3 => ?_
      refine Runs.bind (diskWriteBlockLogged_runs _ _ _ _) fun res t4 h4 => ?_
      rw [h3, hlog] at h4
      rcases h4 with ⟨hc', -, -⟩ | ⟨-, rfl, hlog'⟩
      · exact absurd hc' hc
      · rw [if_neg (by simp)]
        refine Runs.bind Runs.unlogged fun _ t5 h5 => ?_
        refine Runs.bind Runs.unlogged fun _ t6 h6 => Runs.pure (Or.inr ⟨hc, rfl, ?_⟩)
        rw [h6, h5, hlog', List.append_assoc]
  obtain ⟨log, hlogged⟩ := (diskStreamWriteLogged_erases stream buffer n).returns h []
  unfold streamWriteTransfers logOf
  rw [hlogged]
  exact hruns.value hlogged

end

/-! ## 4. When it is what was asked for -/

/-- A call that returned `code` has transferred all the sectors of the request if that is `OK`, and
is not `OK` if there are more than a transfer can carry. -/
structure Counted (n : Nat) (code : Int) (log expected : List SectorTransfer) : Prop where
  all : code = ok → log = expected
  refused : 255 < diskStreamGetAffectedSectors n → code ≠ ok

/-- The lengths whose sectors are at most 255, or come to 0 in eight bits. -/
def CountCarried (n : Nat) : Prop :=
  diskStreamGetAffectedSectors n ≤ 255 ∨ diskStreamGetAffectedSectors n % 256 = 0

instance (n : Nat) : Decidable (CountCarried n) := inferInstanceAs (Decidable (_ ∨ _))

theorem counted_iff {pos n : Nat} {ts : Nat → Nat → List SectorTransfer} {code : Int}
    {log : List SectorTransfer} (h : Transferred pos n ts code log) :
    Counted n code log (ts (pos / 512) (diskStreamGetAffectedSectors n)) ↔ CountCarried n := by
  constructor
  · intro hcounted
    rcases h with ⟨hc, -, -⟩ | ⟨-, hcode, -⟩
    · exact Or.inr hc
    · exact Or.inl (Nat.le_of_not_lt fun hmore => hcounted.refused hmore hcode)
  · intro hcarried
    rcases h with ⟨-, hcode, -⟩ | ⟨hc, -, hlog⟩
    · exact ⟨fun hok => absurd hok hcode, fun _ => hcode⟩
    · have hfew := hcarried.resolve_right hc
      rw [Nat.mod_eq_of_lt (by omega), List.nil_append] at hlog
      exact ⟨fun _ => hlog, fun hmore => absurd hmore (Nat.not_lt_of_le hfew)⟩

/-- On a disk that is large enough, a read that is not refused returns `OK`. -/
theorem fullDisk_read_ok (pos : Nat) {sectors n : Nat} (h0 : 0 < n) (hn : n ≤ kernelMaxHeapMemory)
    (hc : diskStreamGetAffectedSectors n % 256 ≠ 0)
    (hin : pos / 512 + diskStreamGetAffectedSectors n % 256 ≤ sectors) :
    ∃ s', diskStreamRead 0 0x10000000 n (fullDisk pos sectors 1) = .ok ok s' := by
  obtain ⟨p, a1, hm, -, -, hfree⟩ := fullDisk_localBuffer pos sectors 1 h0 hn
  obtain ⟨a2, hf, -⟩ := hfree (readMem (fullDisk pos sectors 1) a1.mem 0 0x10000000 p n)
  exact ⟨_, (diskStreamRead_ok_iff (Nat.ne_of_gt h0) rfl).mpr
    ⟨p, a1, hm, Or.inr ⟨hc, rfl, hin, a2, hf, rfl⟩⟩⟩

/-- A write that is not refused returns `OK` there, too. -/
theorem fullDisk_write_ok (pos : Nat) {sectors n : Nat} (h0 : 0 < n) (hn : n ≤ kernelMaxHeapMemory)
    (hc : diskStreamGetAffectedSectors n % 256 ≠ 0)
    (hin : pos / 512 + diskStreamGetAffectedSectors n % 256 ≤ sectors) :
    ∃ s', diskStreamWrite 0 0x10000000 n (fullDisk pos sectors 1) = .ok ok s' := by
  obtain ⟨p, a1, hm, -, -, hfree⟩ := fullDisk_localBuffer pos sectors 1 h0 hn
  obtain ⟨a2, hf, -⟩ := hfree (writeMem (fullDisk pos sectors 1) a1.mem 0 0x10000000 p n)
  exact ⟨_, (diskStreamWrite_ok_iff (Nat.ne_of_gt h0) rfl).mpr
    ⟨p, a1, hm, Or.inr ⟨hc, rfl, hin, a2, hf, rfl⟩⟩⟩

/-- A request for more than the whole heap does not return. -/
theorem diskStreamRead_too_large {s s' : Sys} {stream buffer n : Nat} {code : Int}
    (hk : KernelHeap s.arena) (hd : (s.streams stream).disk = primaryDisk) (hn : n < 2 ^ 32)
    (hlarge : kernelMaxHeapMemory < n) : diskStreamRead stream buffer n s ≠ .ok code s' := by
  intro h
  obtain ⟨p, a1, hm, ⟨-, -, a2, hf, -⟩ | ⟨-, -, -, a2, hf, -⟩⟩ :=
    (diskStreamRead_ok_iff (Nat.ne_of_gt (Nat.zero_lt_of_lt hlarge)) hd).mp h
  · exact localBuffer_too_large hk hn hlarge hm hf rfl
  · exact localBuffer_too_large hk hn hlarge hm hf rfl

theorem diskStreamWrite_too_large {s s' : Sys} {stream buffer n : Nat} {code : Int}
    (hk : KernelHeap s.arena) (hd : (s.streams stream).disk = primaryDisk) (hn : n < 2 ^ 32)
    (hlarge : kernelMaxHeapMemory < n) : diskStreamWrite stream buffer n s ≠ .ok code s' := by
  intro h
  obtain ⟨p, a1, hm, ⟨-, -, a2, hf, -⟩ | ⟨-, -, -, a2, hf, -⟩⟩ :=
    (diskStreamWrite_ok_iff (Nat.ne_of_gt (Nat.zero_lt_of_lt hlarge)) hd).mp h
  · exact localBuffer_too_large hk hn hlarge hm hf rfl
  · exact localBuffer_too_large hk hn hlarge hm hf rfl

/-- Every read of `n` bytes that returns is counted, whatever the kernel's heap holds and wherever on
the disk the sectors are. -/
def ReadsCounted (n : Nat) : Prop := ∀ (s s' : Sys) (stream buffer : Nat) (code : Int),
  KernelHeap s.arena → (s.streams stream).disk = primaryDisk →
  (s.streams stream).pos / 512 + diskStreamGetAffectedSectors n ≤ s.ata.sectors →
  diskStreamRead stream buffer n s = .ok code s' →
    Counted n code (streamReadTransfers s stream buffer n)
      (readSectors ((s.streams stream).pos / 512) (diskStreamGetAffectedSectors n))

/-- Every write is. -/
def WritesCounted (n : Nat) : Prop := ∀ (s s' : Sys) (stream buffer : Nat) (code : Int),
  KernelHeap s.arena → (s.streams stream).disk = primaryDisk →
  (s.streams stream).pos / 512 + diskStreamGetAffectedSectors n ≤ s.ata.sectors →
  diskStreamWrite stream buffer n s = .ok code s' →
    Counted n code (streamWriteTransfers s stream buffer n)
      (readSectors ((s.streams stream).pos / 512) (diskStreamGetAffectedSectors n) ++
        writeSectors ((s.streams stream).pos / 512) (diskStreamGetAffectedSectors n))

/-- The lengths whose count is carried, and those that are larger than the heap: no call returns with
one. -/
def CountServed (n : Nat) : Prop := CountCarried n ∨ kernelMaxHeapMemory < n

/-- A length that is not served has sectors that a transfer can begin with. -/
theorem not_countServed {n : Nat} (h : ¬ CountServed n) :
    n ≤ kernelMaxHeapMemory ∧ diskStreamGetAffectedSectors n % 256 ≠ 0 ∧ ¬ CountCarried n := by
  obtain ⟨hcarried, hlarge⟩ := not_or.mp h
  exact ⟨Nat.le_of_not_lt hlarge, fun hc => hcarried (Or.inr hc), hcarried⟩

theorem readsCounted_iff {n : Nat} (h0 : 1 ≤ n) (hn : n < 2 ^ 32) : ReadsCounted n ↔ CountServed n := by
  refine ⟨fun hall => ?_, fun hserved s s' stream buffer code hk hd _ hcall => ?_⟩
  · by_contra hnot
    obtain ⟨hsmall, hc, hcarried⟩ := not_countServed hnot
    have hmod := Nat.mod_le (diskStreamGetAffectedSectors n) 256
    obtain ⟨s', hread⟩ : ∃ s', diskStreamRead 0 0x10000000 n
        (fullDisk 0 (diskStreamGetAffectedSectors n) 1) = .ok ok s' :=
      fullDisk_read_ok 0 h0 hsmall hc (by omega)
    refine hcarried ((counted_iff (streamRead_transferred (by omega) rfl hread)).mp
      (hall _ _ _ _ _ (fullDisk_kernelHeap _ _ _) rfl ?_ hread))
    change 0 / 512 + _ ≤ diskStreamGetAffectedSectors n
    omega
  · have hcarried := hserved.resolve_right fun hlarge =>
      diskStreamRead_too_large hk hd hn hlarge hcall
    exact (counted_iff (streamRead_transferred (by omega) hd hcall)).mpr hcarried

theorem writesCounted_iff {n : Nat} (h0 : 1 ≤ n) (hn : n < 2 ^ 32) :
    WritesCounted n ↔ CountServed n := by
  refine ⟨fun hall => ?_, fun hserved s s' stream buffer code hk hd _ hcall => ?_⟩
  · by_contra hnot
    obtain ⟨hsmall, hc, hcarried⟩ := not_countServed hnot
    have hmod := Nat.mod_le (diskStreamGetAffectedSectors n) 256
    obtain ⟨s', hwrite⟩ : ∃ s', diskStreamWrite 0 0x10000000 n
        (fullDisk 0 (diskStreamGetAffectedSectors n) 1) = .ok ok s' :=
      fullDisk_write_ok 0 h0 hsmall hc (by omega)
    refine hcarried ((counted_iff (streamWrite_transferred (by omega) rfl hwrite)).mp
      (hall _ _ _ _ _ (fullDisk_kernelHeap _ _ _) rfl ?_ hwrite))
    change 0 / 512 + _ ≤ diskStreamGetAffectedSectors n
    omega
  · have hcarried := hserved.resolve_right fun hlarge =>
      diskStreamWrite_too_large hk hd hn hlarge hcall
    exact (counted_iff (streamWrite_transferred (by omega) hd hcall)).mpr hcarried

/-- **For which lengths the count arrives**, of every read and every write that returns; and for which
it does in all of them. -/
theorem diskStream_counted_iff {s s' : Sys} {stream buffer n : Nat} {code : Int} (h0 : 1 ≤ n)
    (hd : (s.streams stream).disk = primaryDisk) :
    (diskStreamRead stream buffer n s = .ok code s' →
      (Counted n code (streamReadTransfers s stream buffer n)
        (readSectors ((s.streams stream).pos / 512) (diskStreamGetAffectedSectors n)) ↔ CountCarried n)) ∧
    (diskStreamWrite stream buffer n s = .ok code s' →
      (Counted n code (streamWriteTransfers s stream buffer n)
        (readSectors ((s.streams stream).pos / 512) (diskStreamGetAffectedSectors n) ++
          writeSectors ((s.streams stream).pos / 512) (diskStreamGetAffectedSectors n)) ↔
        CountCarried n)) ∧
    (n < 2 ^ 32 → (ReadsCounted n ↔ CountServed n) ∧ (WritesCounted n ↔ CountServed n)) :=
  ⟨fun h => counted_iff (streamRead_transferred (by omega) hd h),
    fun h => counted_iff (streamWrite_transferred (by omega) hd h),
    fun hn => ⟨readsCounted_iff h0 hn, writesCounted_iff h0 hn⟩⟩

/-- Of 513 bytes, both sectors are transferred. -/
theorem diskStream_counted_two : (∃ s', diskStreamRead 0 0x10000000 513 (fullDisk 0 300 1) = .ok ok s' ∧
      Counted 513 ok (streamReadTransfers (fullDisk 0 300 1) 0 0x10000000 513) [.read 0, .read 1]) ∧
    ∃ s', diskStreamWrite 0 0x10000000 513 (fullDisk 0 300 1) = .ok ok s' ∧
      Counted 513 ok (streamWriteTransfers (fullDisk 0 300 1) 0 0x10000000 513)
        [.read 0, .read 1, .write 0, .write 1] := by
  obtain ⟨s', hread⟩ : ∃ s', diskStreamRead 0 0x10000000 513 (fullDisk 0 300 1) = .ok ok s' :=
    fullDisk_read_ok 0 (by decide) (by decide) (by decide) (by decide)
  obtain ⟨s'', hwrite⟩ : ∃ s', diskStreamWrite 0 0x10000000 513 (fullDisk 0 300 1) = .ok ok s' :=
    fullDisk_write_ok 0 (by decide) (by decide) (by decide) (by decide)
  exact ⟨⟨s', hread, ((diskStream_counted_iff (by decide) rfl).1 hread).mpr (by decide)⟩,
    s'', hwrite, ((diskStream_counted_iff (by decide) rfl).2.1 hwrite).mpr (by decide)⟩

/-- **Of 131073 bytes, one sector of 257 is**, and the status is `OK`. -/
theorem count_truncated : diskStreamGetAffectedSectors 131073 = 257 ∧
    (∃ s', diskStreamRead 0 0x10000000 131073 (fullDisk 0 300 1) = .ok ok s' ∧
      streamReadTransfers (fullDisk 0 300 1) 0 0x10000000 131073 = [.read 0] ∧
      ¬ Counted 131073 ok (streamReadTransfers (fullDisk 0 300 1) 0 0x10000000 131073)
        (readSectors 0 257)) ∧
    ∃ s', diskStreamWrite 0 0x10000000 131073 (fullDisk 0 300 1) = .ok ok s' ∧
      streamWriteTransfers (fullDisk 0 300 1) 0 0x10000000 131073 = [.read 0, .write 0] ∧
      ¬ Counted 131073 ok (streamWriteTransfers (fullDisk 0 300 1) 0 0x10000000 131073)
        (readSectors 0 257 ++ writeSectors 0 257) := by
  have hcount : diskStreamGetAffectedSectors 131073 = 257 := by decide
  have hcut : ∀ {ts : Nat → Nat → List SectorTransfer} {log : List SectorTransfer},
      Transferred 0 131073 ts ok log → log = ts 0 1 := by
    rintro ts log (⟨-, hcode, -⟩ | ⟨-, -, hlog⟩)
    · exact absurd rfl hcode
    · exact hlog
  have hwrong : ∀ {log expected : List SectorTransfer}, ¬ Counted 131073 ok log expected :=
    fun hcounted => hcounted.refused (by decide) rfl
  obtain ⟨s', hread⟩ : ∃ s', diskStreamRead 0 0x10000000 131073 (fullDisk 0 300 1) = .ok ok s' :=
    fullDisk_read_ok 0 (by decide) (by decide) (by decide) (by decide)
  obtain ⟨s'', hwrite⟩ : ∃ s', diskStreamWrite 0 0x10000000 131073 (fullDisk 0 300 1) = .ok ok s' :=
    fullDisk_write_ok 0 (by decide) (by decide) (by decide) (by decide)
  exact ⟨hcount, ⟨s', hread, hcut (streamRead_transferred (by decide) rfl hread), hwrong⟩,
    s'', hwrite, hcut (streamWrite_transferred (by decide) rfl hwrite), hwrong⟩

end KokoOs
