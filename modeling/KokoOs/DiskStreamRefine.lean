/-
# When a stream is a byte array

What a stream is for is a byte array with a position: a read delivers the bytes at the position,
a write replaces them, both move the position on, and a call that fails does nothing.
`ReadContract` and `WriteContract` say this of one call, over every image of the disk, every heap
and every buffer; `ByteStep` says it as a machine.

* **One call.**  The contracts hold of a position and a length exactly when the request is refused, or
  fits the sectors its length suggests and needs fewer than 256 of them, or is larger than the whole
  heap, so that the call never returns (`StreamFits`).  That they fail otherwise is shown on a disk full
  of one byte (`fullDisk`) with other bytes in memory, so that what does not come from the disk is seen
  (`not_readContract`, `not_writeContract`).
* **Runs.**  `streamRun_simulates`: every run of seeks, reads and writes that meets that condition is a
  run of the byte array, by the same calls and with the same answers.  In between the callers may do
  what they like with their own memory.

`diskStream_contract_iff` has both.  Two bytes on both sides of a sector boundary are enough to break the
contract (`straddling_request_breaks`).
-/
import KokoOs.DiskStreamSpec

namespace KokoOs

open Bytes Runs

/-! ## 1. The contracts -/

/-- `disk_stream_read` of `n` bytes at `pos` keeps its contract: if it returns `OK` it has
delivered the bytes of the image, has not changed the image, has moved the stream on, and has used
indices of its local buffer only that are below its size; if it returns an error, neither the
stream nor the image has changed. -/
def ReadContract (pos n : Nat) : Prop :=
  ∀ (s s' : Sys) (stream buffer : Nat) (code : Int), KernelHeap s.arena →
    (s.streams stream).disk = primaryDisk → (s.streams stream).pos = pos →
    pos + n ≤ 512 * s.ata.sectors → Owned s.arena buffer n →
    diskStreamRead stream buffer n s = .ok code s' →
    (code = ok → (∀ i < n, s'.arena.mem (buffer + i) = s.ata.image (pos + i)) ∧ s'.ata = s.ata ∧
      s'.streams = Function.update s.streams stream ((s.streams stream).advance n) ∧
      ∀ i < n, localIndex pos i < localBufferSize n) ∧
    (code ≠ ok → s'.streams = s.streams ∧ s'.ata = s.ata)

/-- `disk_stream_write` likewise: if it returns `OK`, the bytes of the image at the position are
the caller's and all others are what they were. -/
def WriteContract (pos n : Nat) : Prop :=
  ∀ (s s' : Sys) (stream buffer : Nat) (code : Int), KernelHeap s.arena →
    (s.streams stream).disk = primaryDisk → (s.streams stream).pos = pos →
    pos + n ≤ 512 * s.ata.sectors → Owned s.arena buffer n →
    diskStreamWrite stream buffer n s = .ok code s' →
    (code = ok → s'.ata.image = blit s.ata.image pos (slice s.arena.mem buffer n) ∧
      s'.streams = Function.update s.streams stream ((s.streams stream).advance n) ∧
      ∀ i < n, localIndex pos i < localBufferSize n) ∧
    (code ≠ ok → s'.streams = s.streams ∧ s'.ata.image = s.ata.image)

/-- The requests a stream serves as a byte array would. -/
def StreamFits (pos n : Nat) : Prop :=
  diskStreamGetAffectedSectors n % 256 = 0 ∨
    (diskStreamGetAffectedSectors n < 256 ∧ FitsSectors pos n) ∨ kernelMaxHeapMemory < n

instance (pos n : Nat) : Decidable (FitsSectors pos n) := inferInstanceAs (Decidable (_ ≤ _))

instance (pos n : Nat) : Decidable (StreamFits pos n) := inferInstanceAs (Decidable (_ ∨ _))

/-- A request for more than the whole heap never gets its local buffer, or panics when it gives
back the NULL it got. -/
theorem localBuffer_too_large {n p : Nat} {a a1 a2 a3 : Arena} (hk : KernelHeap a)
    (hn : n < 2 ^ 32) (hlarge : kernelMaxHeapMemory < n)
    (hm : heapMalloc (localBufferSize n) a = .ok p a1) (hf : heapFree p a2 = .ok () a3)
    (hheap : a2.heap = a1.heap) : False := by
  have hsize : localBufferSize n < 2 ^ 32 := Nat.mod_lt _ (by decide)
  obtain ⟨-, -, -, -, -, b, -, hpos, hfits, hadd⟩ := hk.temporary hsize hm hf hheap
  have hin := hadd.inside
  simp only [kernelMaxHeapMemory] at hlarge
  have hlen : localBufferSize n = 0 ∨ n ≤ localBufferSize n := by
    unfold localBufferSize
    rw [affectedSectors_eq]
    simp only [kernelDefaultDiskSectorSize]
    omega
  rcases hlen with h0 | hle
  · rw [h0] at hpos
    exact absurd hpos (by decide)
  · omega

/-- The request fits the sectors that are transferred. -/
theorem StreamFits.sectors {pos n : Nat} (h : StreamFits pos n) (hn : n ≤ kernelMaxHeapMemory)
    (hc : diskStreamGetAffectedSectors n % 256 ≠ 0) : FitsSectors pos n ∧
      diskStreamGetAffectedSectors n % 256 = diskStreamGetAffectedSectors n := by
  rcases h with h | ⟨hlt, hfit⟩ | h
  · exact absurd h hc
  · exact ⟨hfit, Nat.mod_eq_of_lt hlt⟩
  · omega

/-- All indices of the copying loops are inside the local buffer when the request fits. -/
theorem FitsSectors.localIndex_lt {pos n : Nat} (h : FitsSectors pos n) (hn : n < 2 ^ 32)
    (hc : diskStreamGetAffectedSectors n % 256 ≠ 0) {i : Nat} (hi : i < n) :
    localIndex pos i < localBufferSize n := by
  rw [localBufferSize_eq hn hc]
  unfold FitsSectors at h
  unfold localIndex
  simp only [kernelDefaultDiskSectorSize]
  omega

theorem readContract_of_fits {pos n : Nat} (h0 : 0 < n) (hn : n < 2 ^ 32) (h : StreamFits pos n) :
    ReadContract pos n := by
  intro s s' stream buffer code hk hd hpos _ howned hcall
  obtain ⟨-, hata, -, hcase⟩ := diskStreamRead_spec hk hd (by omega) hn hcall
  rcases hcase with ⟨-, rfl, hst, -⟩ | ⟨hc, rfl, hst, -, hbytes⟩
  · exact ⟨fun hcode => absurd hcode (by decide), fun _ => ⟨hst, hata⟩⟩
  · refine ⟨fun _ => ?_, fun hcode => absurd rfl hcode⟩
    by_cases hlarge : kernelMaxHeapMemory < n
    · obtain ⟨p, a1, hm, ⟨hc', -⟩ | ⟨-, -, -, a2, hf, -⟩⟩ :=
        (diskStreamRead_ok_iff (by omega) hd).mp hcall
      · exact absurd hc' hc
      · exact (localBuffer_too_large hk hn hlarge hm hf rfl).elim
    · obtain ⟨hfit, hmod⟩ := h.sectors (by omega) hc
      refine ⟨fun i hi => ?_, hata, hst, fun i hi => hfit.localIndex_lt hn hc hi⟩
      rw [hpos, hmod] at hbytes
      unfold FitsSectors at hfit
      exact hbytes howned i hi (by omega)

theorem writeContract_of_fits {pos n : Nat} (h0 : 0 < n) (hn : n < 2 ^ 32) (h : StreamFits pos n) :
    WriteContract pos n := by
  intro s s' stream buffer code hk hd hpos _ howned hcall
  obtain ⟨p, a1, hm, ⟨-, hcode, a2, -, hs'⟩ | ⟨hc, hcode, -, a2, hf, -⟩⟩ :=
    (diskStreamWrite_ok_iff (by omega) hd).mp hcall
  · rw [hcode, hs']
    exact ⟨fun hok => absurd hok (by decide), fun _ => ⟨rfl, rfl⟩⟩
  · by_cases hlarge : kernelMaxHeapMemory < n
    · exact (localBuffer_too_large hk hn hlarge hm hf rfl).elim
    obtain ⟨hfit, hmod⟩ := h.sectors (by omega) hc
    have hfit' := hfit
    rw [← hpos] at hfit'
    obtain ⟨-, -, -, -, ⟨hc', -⟩ | ⟨-, -, hst, himage⟩⟩ :=
      diskStreamWrite_spec hk hd (by omega) hn hfit' howned hcall
    · exact absurd hc' hc
    refine ⟨fun _ => ⟨funext fun x => ?_, hst, fun i hi => hfit.localIndex_lt hn hc hi⟩,
      fun hne => absurd hcode hne⟩
    rw [himage x, hpos, hmod]
    unfold FitsSectors at hfit
    by_cases hx : pos ≤ x ∧ x < pos + n
    · obtain ⟨i, rfl⟩ := Nat.exists_eq_add_of_le hx.1
      rw [if_pos (by omega), blit_add (by rw [length_slice]; omega), getElem_slice,
        Nat.add_sub_cancel_left]
    · rw [if_neg (by omega), blit_of_not_mem (by rw [length_slice]; exact hx)]

/-! ## 2. Where the contracts fail -/

/-- The kernel right after `memory_init`, with a disk of `sectors` sectors full of the byte `v`, a
stream at `pos`, and ones in the memory above the heap. -/
def fullDisk (pos sectors : Nat) (v : UInt8) : Sys where
  arena := freshKernel fun x => if 0x10000000 ≤ x then 1 else 0
  ata := ⟨sectors, fun _ => v⟩
  disks := fun _ => ⟨0, 0, 512, none, none⟩
  streams := fun _ => ⟨pos, primaryDisk⟩

theorem fullDisk_kernelHeap (pos sectors : Nat) (v : UInt8) :
    KernelHeap (fullDisk pos sectors v).arena :=
  freshKernel_kernelHeap _

/-- The local buffer of a request that fits the heap is allocated there, and given back whatever
is in memory by then. -/
theorem fullDisk_localBuffer (pos sectors : Nat) (v : UInt8) {n : Nat} (h0 : 0 < n)
    (hn : n ≤ kernelMaxHeapMemory) :
    ∃ p a1, heapMalloc (localBufferSize n) (fullDisk pos sectors v).arena = .ok p a1 ∧
      a1.mem = (fullDisk pos sectors v).arena.mem ∧ p + 4096 ≤ 0x10000000 - n ∧
      ∀ m, ∃ a2, heapFree p ⟨a1.heap, m⟩ = .ok () a2 ∧ a2.mem = fill m p 4096 0 := by
  have hk := fullDisk_kernelHeap pos sectors v
  simp only [kernelMaxHeapMemory] at hn
  have hsize : localBufferSize n = 512 * diskStreamGetAffectedSectors n := by
    unfold localBufferSize
    rw [affectedSectors_eq]
    simp only [kernelDefaultDiskSectorSize]
    omega
  have hlt : localBufferSize n < 2 ^ 32 := Nat.mod_lt _ (by decide)
  have haff := affectedSectors_eq n
  have hal : heapAlignAmountOfBytesRequested (localBufferSize n) ≠ 0 ∧
      blocksOf (localBufferSize n) ≤ 25600 := by
    unfold blocksOf heapAlignAmountOfBytesRequested
    simp only [kernelHeapBlockSize]
    split <;> omega
  obtain ⟨p, a1, hm⟩ := heapMalloc_returns (n := localBufferSize n) (b := 0)
    (s := (fullDisk pos sectors v).arena) (by rw [Nat.zero_add]; exact hal.2)
    (fun i _ => (by decide : heapEntryIsFree 0 = true))
  rcases hk.malloc hlt hm with ⟨hz, -⟩ | ⟨b, hp, hpos, hfits, hadd⟩
  · exact absurd hz hal.1
  · have hin := hadd.inside
    have hbound : p + 4096 ≤ 0x10000000 - n := by
      rw [hp]
      simp only [memoryHeapStartAddress]
      omega
    refine ⟨p, a1, hm, hadd.mem, hbound, fun m => ?_⟩
    obtain ⟨a2, hf⟩ := hadd.free_returns hpos m
    rw [← hp] at hf
    exact ⟨a2, hf, (hk.temporary hlt hm hf rfl).2.1⟩

/-- What a request that does not fit is like. -/
theorem not_streamFits {pos n : Nat} (h : ¬ StreamFits pos n) :
    diskStreamGetAffectedSectors n % 256 ≠ 0 ∧ n ≤ kernelMaxHeapMemory ∧
      (¬ FitsSectors pos n ∨ 256 ≤ diskStreamGetAffectedSectors n) := by
  unfold StreamFits at h
  refine ⟨fun hc => h (Or.inl hc), by omega, ?_⟩
  by_contra hno
  exact h (Or.inr (Or.inl ⟨by omega, by tauto⟩))

/-- A straddling request uses an index that is not in the local buffer. -/
theorem not_localIndex_lt {pos n : Nat} (h0 : 0 < n) (hn : n < 2 ^ 32)
    (hc : diskStreamGetAffectedSectors n % 256 ≠ 0) (hfit : ¬ FitsSectors pos n) :
    ¬ ∀ i < n, localIndex pos i < localBufferSize n := by
  intro hidx
  have := hidx (n - 1) (by omega)
  rw [localBufferSize_eq hn hc] at this
  unfold FitsSectors at hfit
  unfold localIndex at this
  simp only [kernelDefaultDiskSectorSize] at this
  omega

/-- The last byte of a request of 256 sectors or more is not among the sectors that are
transferred. -/
theorem last_byte_not_transferred (pos : Nat) {n : Nat}
    (hbig : 256 ≤ diskStreamGetAffectedSectors n) :
    512 * (diskStreamGetAffectedSectors n % 256) ≤ pos % 512 + (n - 1) := by
  have h1 := Nat.mod_lt (diskStreamGetAffectedSectors n) (by decide : 0 < 256)
  have h2 := Nat.div_add_mod (diskStreamGetAffectedSectors n) 256
  have h3 := affectedSectors_eq n
  omega

/-- **A read that does not fit breaks its contract**: it uses memory behind its buffer, or
delivers bytes that are not those of the disk. -/
theorem not_readContract {pos n : Nat} (h0 : 0 < n) (hn : n < 2 ^ 32) (h : ¬ StreamFits pos n) :
    ¬ ReadContract pos n := by
  intro hcontract
  obtain ⟨hc, hlarge, hwhy⟩ := not_streamFits h
  obtain ⟨p, a1, hm, hmem1, hbound, hfree⟩ := fullDisk_localBuffer pos (pos + n + 256) 1 h0 hlarge
  obtain ⟨a2, hf, hmem2⟩ :=
    hfree (readMem (fullDisk pos (pos + n + 256) 1) a1.mem 0 0x10000000 p n)
  have hmod := Nat.mod_lt (diskStreamGetAffectedSectors n) (by decide : 0 < 256)
  have hin : pos / 512 + diskStreamGetAffectedSectors n % 256 ≤ pos + n + 256 := by omega
  have hcall := (diskStreamRead_ok_iff (Nat.ne_of_gt h0) rfl).mpr
    ⟨p, a1, hm, Or.inr ⟨hc, rfl, hin, a2, hf, rfl⟩⟩
  have hk := fullDisk_kernelHeap pos (pos + n + 256) 1
  have hsize : pos + n ≤ 512 * (pos + n + 256) := by omega
  obtain ⟨hok, -⟩ := hcontract _ _ 0 0x10000000 ok hk rfl rfl hsize
    (fun i _ => not_inFree_above hk (Nat.le_add_right _ _)) hcall
  obtain ⟨hbytes, -, -, hidx⟩ := hok rfl
  rcases hwhy with hfit | hbig
  · exact not_localIndex_lt h0 hn hc hfit hidx
  · have hlast := last_byte_not_transferred pos hbig
    have hbyte := hbytes (n - 1) (by omega)
    have hpos : ((fullDisk pos (pos + n + 256) 1).streams 0).pos = pos := rfl
    dsimp only at hbyte
    rw [hmem2, fill_of_not_mem (by omega), readMem, copyFromLocal_eq, hpos,
      copyLoop_of_mem (by omega) (by omega) (by omega), blit_of_not_mem
      (by rw [length_slice]; omega), hmem1] at hbyte
    have hzero : ¬ 0x10000000 ≤ p + pos % 512 + (n - 1) := by
      simp only [kernelMaxHeapMemory] at hlarge
      omega
    have hleft : (fullDisk pos (pos + n + 256) 1).arena.mem (p + pos % 512 + (n - 1)) = 0 :=
      if_neg hzero
    have hright : (fullDisk pos (pos + n + 256) 1).ata.image (pos + (n - 1)) = 1 := rfl
    rw [hleft, hright] at hbyte
    exact absurd hbyte (by decide)

/-- **A write that does not fit breaks its contract**: it writes behind its buffer, or leaves
bytes of the disk unwritten. -/
theorem not_writeContract {pos n : Nat} (h0 : 0 < n) (hn : n < 2 ^ 32) (h : ¬ StreamFits pos n) :
    ¬ WriteContract pos n := by
  intro hcontract
  obtain ⟨hc, hlarge, hwhy⟩ := not_streamFits h
  obtain ⟨p, a1, hm, hmem1, hbound, hfree⟩ := fullDisk_localBuffer pos (pos + n + 256) 0 h0 hlarge
  obtain ⟨a2, hf, -⟩ := hfree (writeMem (fullDisk pos (pos + n + 256) 0) a1.mem 0 0x10000000 p n)
  have hmod := Nat.mod_lt (diskStreamGetAffectedSectors n) (by decide : 0 < 256)
  have hin : pos / 512 + diskStreamGetAffectedSectors n % 256 ≤ pos + n + 256 := by omega
  have hcall := (diskStreamWrite_ok_iff (Nat.ne_of_gt h0) rfl).mpr
    ⟨p, a1, hm, Or.inr ⟨hc, rfl, hin, a2, hf, rfl⟩⟩
  have hk := fullDisk_kernelHeap pos (pos + n + 256) 0
  have hsize : pos + n ≤ 512 * (pos + n + 256) := by omega
  obtain ⟨hok, -⟩ := hcontract _ _ 0 0x10000000 ok hk rfl rfl hsize
    (fun i _ => not_inFree_above hk (Nat.le_add_right _ _)) hcall
  obtain ⟨himage, -, hidx⟩ := hok rfl
  rcases hwhy with hfit | hbig
  · exact not_localIndex_lt h0 hn hc hfit hidx
  · have hlast := last_byte_not_transferred pos hbig
    have hbyte := congrFun himage (pos + (n - 1))
    have hpos : ((fullDisk pos (pos + n + 256) 0).streams 0).pos = pos := rfl
    dsimp only at hbyte
    rw [hpos, blit_of_not_mem (by rw [length_slice]; omega),
      blit_add (by rw [length_slice]; omega), getElem_slice] at hbyte
    have hright : (fullDisk pos (pos + n + 256) 0).arena.mem (0x10000000 + (n - 1)) = 1 :=
      if_pos (Nat.le_add_right _ _)
    have hleft : (fullDisk pos (pos + n + 256) 0).ata.image (pos + (n - 1)) = 0 := rfl
    rw [hleft, hright] at hbyte
    exact absurd hbyte (by decide)

/-! ## 3. The byte array -/

/-- The calls on the streams of the disk, with what they answered.  A read and a write carry the
bytes that were delivered, or handed over; `client` is anything the callers do to their own memory
in between. -/
inductive StreamCall where
  | seek (stream pos : Nat)
  | seekBySector (stream sector : Nat)
  | read (stream n : Nat) (code : Int) (bytes : List UInt8)
  | write (stream : Nat) (code : Int) (bytes : List UInt8)
  | client

/-- One call that returns. -/
inductive StreamStep : Sys → StreamCall → Sys → Prop
  | seek {s s' : Sys} {stream pos : Nat} {code : Int} :
      diskStreamSeek stream pos s = .ok code s' → StreamStep s (.seek stream pos) s'
  | seekBySector {s s' : Sys} {stream sector : Nat} {code : Int} :
      diskStreamSeekBySector stream sector s = .ok code s' →
      StreamStep s (.seekBySector stream sector) s'
  | read {s s' : Sys} {stream buffer n : Nat} {code : Int} :
      0 < n → n < 2 ^ 32 → Owned s.arena buffer n →
      diskStreamRead stream buffer n s = .ok code s' →
      StreamStep s (.read stream n code (slice s'.arena.mem buffer n)) s'
  | write {s s' : Sys} {stream buffer n : Nat} {code : Int} :
      0 < n → n < 2 ^ 32 → Owned s.arena buffer n →
      diskStreamWrite stream buffer n s = .ok code s' →
      StreamStep s (.write stream code (slice s.arena.mem buffer n)) s'
  | client {s : Sys} {m : Mem} : StreamStep s .client { s with arena := ⟨s.arena.heap, m⟩ }

/-- A disk as a byte array with positions, in sectors of `sectorSize` bytes. -/
structure ByteDisk where
  bytes : Nat → UInt8
  pos : Nat → Nat
  sectorSize : Nat

/-- **The byte array.**  A read that returns `OK` delivers the bytes at the position and a write
that does replaces them; both move the position on.  A call that fails changes nothing. -/
inductive ByteStep : ByteDisk → StreamCall → ByteDisk → Prop
  | seek {d : ByteDisk} {stream pos : Nat} :
      ByteStep d (.seek stream pos) { d with pos := Function.update d.pos stream pos }
  | seekBySector {d : ByteDisk} {stream sector : Nat} :
      ByteStep d (.seekBySector stream sector)
        { d with pos := Function.update d.pos stream (sector * d.sectorSize % 2 ^ 32) }
  | read {d : ByteDisk} {stream n : Nat} :
      ByteStep d (.read stream n ok (slice d.bytes (d.pos stream) n))
        { d with pos := Function.update d.pos stream ((d.pos stream + n) % 2 ^ 32) }
  | write {d : ByteDisk} {stream : Nat} {bytes : List UInt8} :
      ByteStep d (.write stream ok bytes)
        { d with
          bytes := blit d.bytes (d.pos stream) bytes
          pos := Function.update d.pos stream ((d.pos stream + bytes.length) % 2 ^ 32) }
  | readError {d : ByteDisk} {stream n : Nat} {code : Int} {bytes : List UInt8} :
      code ≠ ok → ByteStep d (.read stream n code bytes) d
  | writeError {d : ByteDisk} {stream : Nat} {code : Int} {bytes : List UInt8} :
      code ≠ ok → ByteStep d (.write stream code bytes) d
  | client {d : ByteDisk} : ByteStep d .client d

/-- The kernel shows the byte array: its image and the positions of its streams, all of them
streams of the primary disk. -/
structure ShowsBytes (s : Sys) (d : ByteDisk) : Prop where
  heap : KernelHeap s.arena
  disk : ∀ stream, (s.streams stream).disk = primaryDisk
  bytes : d.bytes = s.ata.image
  pos : d.pos = fun stream => (s.streams stream).pos
  sectorSize : d.sectorSize = (s.disks primaryDisk).sectorSize

/-- The condition on the calls of a run: reads and writes are inside the disk and fit. -/
def CallFits (s : Sys) : StreamCall → Prop
  | .read stream n _ _ => (s.streams stream).pos + n ≤ 512 * s.ata.sectors ∧
      StreamFits (s.streams stream).pos n
  | .write stream _ bytes => (s.streams stream).pos + bytes.length ≤ 512 * s.ata.sectors ∧
      StreamFits (s.streams stream).pos bytes.length
  | _ => True

/-- **A call that fits is a call of the byte array.** -/
theorem StreamStep.simulates {s s' : Sys} {d : ByteDisk} {l : StreamCall} (hR : ShowsBytes s d)
    (hfit : CallFits s l) (h : StreamStep s l s') : ∃ d', ByteStep d l d' ∧ ShowsBytes s' d' := by
  obtain ⟨hk, hdisk, hbytes, hpos, hsize⟩ := hR
  -- moving one stream moves one position
  have hmove : ∀ (stream : Nat) (st : DiskStream), st.disk = primaryDisk →
      (∀ id, (Function.update s.streams stream st id).disk = primaryDisk) ∧
        Function.update d.pos stream st.pos
          = fun id => (Function.update s.streams stream st id).pos := by
    intro stream st hst
    refine ⟨fun id => ?_, funext fun id => ?_⟩
    · rw [Function.update_apply]
      split
      · exact hst
      · exact hdisk id
    · rw [Function.update_apply, Function.update_apply, hpos]
      split <;> rfl
  cases h with
  | @seek _ stream pos code hcall =>
    obtain ⟨_, s1, hset, hret⟩ := (Prog.bind_ok_iff _ _ _ _ _).mp hcall
    obtain rfl := setStream_ok_iff.mp hset
    obtain ⟨-, rfl⟩ := (Prog.pure_ok_iff _ _ _ _).mp hret
    obtain ⟨h1, h2⟩ := hmove stream { s.streams stream with pos } (hdisk stream)
    exact ⟨_, .seek, hk, h1, hbytes, h2, hsize⟩
  | @seekBySector _ stream sector code hcall =>
    unfold diskStreamSeekBySector at hcall
    rw [Prog.get_bind] at hcall
    obtain ⟨_, s1, hset, hret⟩ := (Prog.bind_ok_iff _ _ _ _ _).mp hcall
    obtain rfl := setStream_ok_iff.mp hset
    obtain ⟨-, rfl⟩ := (Prog.pure_ok_iff _ _ _ _).mp hret
    have hsz : d.sectorSize = (s.disks (s.streams stream).disk).sectorSize := by
      rw [hdisk stream]
      exact hsize
    obtain ⟨h1, h2⟩ := hmove stream { s.streams stream with
      pos := sector * (s.disks (s.streams stream).disk).sectorSize % 2 ^ 32 } (hdisk stream)
    refine ⟨_, .seekBySector, hk, h1, hbytes, ?_, hsize⟩
    rw [hsz]
    exact h2
  | @read _ stream buffer n code h0 hn howned hcall =>
    obtain ⟨hin, hfits⟩ := hfit
    obtain ⟨hk', hata, hdisks, -⟩ := diskStreamRead_spec hk (hdisk stream) (by omega) hn hcall
    obtain ⟨hok, herr⟩ := readContract_of_fits h0 hn hfits s _ stream buffer code hk (hdisk stream)
      rfl hin howned hcall
    by_cases hcode : code = ok
    · obtain ⟨hdata, -, hstreams, -⟩ := hok hcode
      obtain ⟨h1, h2⟩ := hmove stream ((s.streams stream).advance n) (hdisk stream)
      have hslice : slice s'.arena.mem buffer n = slice d.bytes (d.pos stream) n := by
        rw [hbytes, hpos]
        exact slice_congr hdata
      rw [hslice, hcode]
      refine ⟨_, .read, hk', by rw [hstreams]; exact h1, by rw [hata]; exact hbytes, ?_,
        by rw [hdisks]; exact hsize⟩
      rw [hstreams, ← h2, hpos]
      rfl
    · obtain ⟨hstreams, -⟩ := herr hcode
      exact ⟨d, .readError hcode, hk', by rw [hstreams]; exact hdisk, by rw [hata]; exact hbytes,
        by rw [hstreams]; exact hpos, by rw [hdisks]; exact hsize⟩
  | @write _ stream buffer n code h0 hn howned hcall =>
    obtain ⟨hin, hfits⟩ := hfit
    rw [length_slice] at hin hfits
    obtain ⟨hok, herr⟩ := writeContract_of_fits h0 hn hfits s _ stream buffer code hk
      (hdisk stream) rfl hin howned hcall
    obtain ⟨hk', hdisks⟩ : KernelHeap s'.arena ∧ s'.disks = s.disks := by
      have hlen : localBufferSize n < 2 ^ 32 := Nat.mod_lt _ (by decide)
      obtain ⟨p, a1, hm, ⟨-, -, a2, hf, rfl⟩ | ⟨-, -, -, a2, hf, rfl⟩⟩ :=
        (diskStreamWrite_ok_iff (by omega) (hdisk stream)).mp hcall
      · exact ⟨(hk.temporary hlen hm hf rfl).1, rfl⟩
      · exact ⟨(hk.temporary hlen hm hf rfl).1, rfl⟩
    by_cases hcode : code = ok
    · obtain ⟨himage, hstreams, -⟩ := hok hcode
      obtain ⟨h1, h2⟩ := hmove stream ((s.streams stream).advance n) (hdisk stream)
      rw [hcode]
      refine ⟨_, .write, hk', by rw [hstreams]; exact h1, ?_, ?_, by rw [hdisks]; exact hsize⟩
      · rw [himage, hbytes, hpos]
      · rw [hstreams, ← h2, hpos, length_slice]
        rfl
    · obtain ⟨hstreams, himage⟩ := herr hcode
      exact ⟨d, .writeError hcode, hk', by rw [hstreams]; exact hdisk,
        by rw [himage]; exact hbytes, by rw [hstreams]; exact hpos, by rw [hdisks]; exact hsize⟩
  | client => exact ⟨d, .client, hk.congr rfl, hdisk, hbytes, hpos, hsize⟩

/-- **A run of calls that fit is a run of the byte array.** -/
theorem streamRun_simulates {s s' : Sys} {d : ByteDisk} {tr : List (Sys × StreamCall)}
    (hR : ShowsBytes s d) (h : Run StreamStep s tr s') (hfit : AllSteps CallFits tr) :
    ∃ tr' d', Run ByteStep d tr' d' ∧ ShowsBytes s' d' ∧
      tr'.map Prod.snd = tr.map Prod.snd :=
  h.simulates (fun _ _ _ _ hR hfit hstep => hstep.simulates hR hfit) hR hfit

/-! ## 4. When a stream is a byte array -/

/-- **A stream is a byte array exactly for the requests that fit**: a call keeps its contract if
and only if the request fits, and every run of calls that fit is a run of the byte array. -/
theorem diskStream_contract_iff (pos n : Nat) (h0 : 0 < n) (hn : n < 2 ^ 32) :
    ((ReadContract pos n ↔ StreamFits pos n) ∧ (WriteContract pos n ↔ StreamFits pos n)) ∧
    ∀ (s s' : Sys) (d : ByteDisk) (tr : List (Sys × StreamCall)), ShowsBytes s d →
      Run StreamStep s tr s' → AllSteps CallFits tr →
      ∃ tr' d', Run ByteStep d tr' d' ∧ ShowsBytes s' d' ∧ tr'.map Prod.snd = tr.map Prod.snd := by
  refine ⟨⟨⟨fun h => ?_, readContract_of_fits h0 hn⟩,
    ⟨fun h => ?_, writeContract_of_fits h0 hn⟩⟩, fun s s' d tr => streamRun_simulates⟩
  · by_contra hno
    exact not_readContract h0 hn hno h
  · by_contra hno
    exact not_writeContract h0 hn hno h

/-- Two sectors at a sector boundary are read and written as bytes of an array would be, and so is
a run of two seeks. -/
theorem diskStream_contract_aligned : ReadContract 512 1024 ∧ WriteContract 512 1024 ∧
    ∃ tr' d', Run ByteStep ⟨fun _ => 7, fun _ => 0, 512⟩ tr' d' ∧ d'.pos 3 = 1024 := by
  obtain ⟨hcontract, hruns⟩ := diskStream_contract_iff 512 1024 (by decide) (by decide)
  refine ⟨hcontract.1.mpr (by decide), hcontract.2.mpr (by decide), ?_⟩
  have hstart : ShowsBytes (fullDisk 0 8 7) ⟨fun _ => 7, fun _ => 0, 512⟩ :=
    ⟨fullDisk_kernelHeap 0 8 7, fun _ => rfl, rfl, rfl, rfl⟩
  have hrun := ((Run.refl (fullDisk 0 8 7) : Run StreamStep _ _ _).tail
    (@StreamStep.seek _ _ 3 512 ok rfl)).tail (@StreamStep.seekBySector _ _ 3 2 ok rfl)
  obtain ⟨tr', d', hrun', hshows, -⟩ := hruns _ _ _ _ hstart hrun
    (AllSteps.append.mpr ⟨AllSteps.append.mpr
      ⟨fun _ hp => absurd hp List.not_mem_nil, trivial⟩, trivial⟩)
  exact ⟨tr', d', hrun', by rw [hshows.pos]; rfl⟩

/-- Two bytes on both sides of a sector boundary are neither: only the first sector is read. -/
theorem straddling_request_breaks : ¬ ReadContract 511 2 ∧ ¬ WriteContract 511 2 :=
  ⟨not_readContract (by decide) (by decide) (by decide),
    not_writeContract (by decide) (by decide) (by decide)⟩

end KokoOs
