/-
# What a call on a stream does

`diskStreamRead_ok_iff` and `diskStreamWrite_ok_iff` say exactly when a call returns and what it has
done: it allocated the local buffer, asked the device for the number of sectors it had computed
-- cut off to eight bits on the way --, copied, and gave the buffer back.  They are stated for every
state, and nothing after this file opens the two functions again.

On the kernel's heap the rest follows.

* **The frame.**  The buffer was in free blocks, so nobody's memory but the caller's is touched.
* **Reading.**  `diskStreamRead_spec`: the bytes that arrive are those of the device as long as they are
  among the sectors that were asked for.  Behind these, they are what memory holds behind the buffer.
* **Writing.**  The sectors are read first, so that what the request does not cover is written back as
  it was; `diskStreamWrite_spec` is about requests that fit their sectors (`FitsSectors`).

Both are refused exactly when the number of sectors is 0 in eight bits, and then nothing has happened.
-/
import KokoOs.DiskStream
import KokoOs.KernelHeap

namespace KokoOs

open Bytes

/-! ## 1. The operations of the state -/

theorem onArena_ok_iff {α : Type} {m : HeapM α} {x : α} {s s' : Sys} :
    onArena m s = .ok x s' ↔ ∃ a, m s.arena = .ok x a ∧ s' = { s with arena := a } := by
  unfold onArena
  rw [Prog.zoom_ok_iff]
  exact exists_congr fun a => and_congr_right fun _ => eq_comm

@[simp] theorem storeMem_ok_iff {f : Mem → Mem} {s s' : Sys} {u : Unit} :
    storeMem f s = .ok u s' ↔ s' = { s with arena := ⟨s.arena.heap, f s.arena.mem⟩ } := by
  unfold storeMem
  rw [Prog.modify_ok_iff]
  exact eq_comm

@[simp] theorem setStream_ok_iff {stream : Nat} {f : DiskStream → DiskStream} {s s' : Sys} {u : Unit} :
    setStream stream f s = .ok u s' ↔
      s' = { s with streams := Function.update s.streams stream (f (s.streams stream)) } := by
  unfold setStream
  rw [Prog.modify_ok_iff]
  exact eq_comm

/-- `disk_read_block` on the primary disk refuses a count that is 0 in eight bits, and otherwise
transfers exactly that many sectors. -/
theorem diskReadBlock_ok_iff {buffer lba n : Nat} {s s' : Sys} {code : Int} :
    diskReadBlock primaryDisk buffer lba n s = .ok code s' ↔
      (n % 256 = 0 ∧ code = invalidArgument ∧ s' = s) ∨
      (n % 256 ≠ 0 ∧ code = ok ∧ lba + n % 256 ≤ s.ata.sectors ∧
        s' = { s with arena := ⟨s.arena.heap,
          blit s.arena.mem buffer (slice s.ata.image (512 * lba) (512 * (n % 256)))⟩ }) := by
  unfold diskReadBlock diskReadSector
  rw [if_neg (by decide)]
  by_cases h0 : n % 256 = 0
  · simp [h0, eq_comm]
  · rw [if_neg h0, Prog.get_bind]
    by_cases hs : s.ata.sectors < lba + n % 256
    · simp [hs, h0]
    · rw [if_neg hs]
      simp only [Prog.bind_ok_iff, storeMem_ok_iff, Prog.pure_ok_iff]
      constructor
      · rintro ⟨_, s1, hs1, hcode, rfl⟩
        exact Or.inr ⟨h0, hcode.symm, by omega, hs1⟩
      · rintro (⟨h1, -⟩ | ⟨-, rfl, -, rfl⟩)
        · exact absurd h1 h0
        · exact ⟨(), _, rfl, rfl, rfl⟩

/-- `disk_write_block` likewise. -/
theorem diskWriteBlock_ok_iff {buffer lba n : Nat} {s s' : Sys} {code : Int} :
    diskWriteBlock primaryDisk buffer lba n s = .ok code s' ↔
      (n % 256 = 0 ∧ code = invalidArgument ∧ s' = s) ∨
      (n % 256 ≠ 0 ∧ code = ok ∧ lba + n % 256 ≤ s.ata.sectors ∧
        s' = { s with ata := ⟨s.ata.sectors,
          blit s.ata.image (512 * lba) (slice s.arena.mem buffer (512 * (n % 256)))⟩ }) := by
  unfold diskWriteBlock diskWriteSector
  rw [if_neg (by decide)]
  by_cases h0 : n % 256 = 0
  · simp [h0, eq_comm]
  · rw [if_neg h0, Prog.get_bind]
    by_cases hs : s.ata.sectors < lba + n % 256
    · simp [hs, h0]
    · rw [if_neg hs]
      simp only [Prog.bind_ok_iff, Prog.set_ok_iff, Prog.pure_ok_iff]
      constructor
      · rintro ⟨_, s1, hs1, hcode, rfl⟩
        exact Or.inr ⟨h0, hcode.symm, by omega, hs1.symm⟩
      · rintro (⟨h1, -⟩ | ⟨-, rfl, -, rfl⟩)
        · exact absurd h1 h0
        · exact ⟨(), _, rfl, rfl, rfl⟩

/-! ## 2. The calls, step by step -/

section Calls

variable {stream buffer n : Nat} {s s' : Sys} {code : Int}

/-- The stream after a call that returned `OK`. -/
def DiskStream.advance (st : DiskStream) (n : Nat) : DiskStream :=
  { st with pos := (st.pos + n) % 2 ^ 32 }

/-- The memory of `disk_stream_read` when it gives its buffer back. -/
def readMem (s : Sys) (m : Mem) (stream buffer localBuffer n : Nat) : Mem :=
  copyFromLocal buffer localBuffer (s.streams stream).pos n 0
    (blit m localBuffer (slice s.ata.image (512 * ((s.streams stream).pos / 512))
      (512 * (diskStreamGetAffectedSectors n % 256))))

/-- The memory of `disk_stream_write` when it gives its buffer back. -/
def writeMem (s : Sys) (m : Mem) (stream buffer localBuffer n : Nat) : Mem :=
  copyToLocal buffer localBuffer (s.streams stream).pos n 0
    (blit m localBuffer (slice s.ata.image (512 * ((s.streams stream).pos / 512))
      (512 * (diskStreamGetAffectedSectors n % 256))))

/-- **`disk_stream_read`, step by step.** -/
theorem diskStreamRead_ok_iff (h0 : n ≠ 0) (hd : (s.streams stream).disk = primaryDisk) :
    diskStreamRead stream buffer n s = .ok code s' ↔
      ∃ p a1, heapMalloc (localBufferSize n) s.arena = .ok p a1 ∧
        ((diskStreamGetAffectedSectors n % 256 = 0 ∧ code = invalidArgument ∧
            ∃ a2, heapFree p a1 = .ok () a2 ∧ s' = { s with arena := a2 }) ∨
          (diskStreamGetAffectedSectors n % 256 ≠ 0 ∧ code = ok ∧
            (s.streams stream).pos / 512 + diskStreamGetAffectedSectors n % 256 ≤ s.ata.sectors ∧
            ∃ a2, heapFree p ⟨a1.heap, readMem s a1.mem stream buffer p n⟩ = .ok () a2 ∧
              s' = ⟨a2, s.ata, s.disks, Function.update s.streams stream
                ((s.streams stream).advance n)⟩)) := by
  have hne : invalidArgument ≠ ok := by decide
  unfold diskStreamRead
  rw [if_neg h0, Prog.get_bind, Prog.bind_ok_iff]
  unfold Sys.malloc Sys.free
  constructor
  · rintro ⟨p, s1, hmalloc, h⟩
    obtain ⟨a1, ha1, rfl⟩ := onArena_ok_iff.mp hmalloc
    obtain ⟨res, s2, hread, h⟩ := (Prog.bind_ok_iff _ _ _ _ _).mp h
    rw [hd] at hread
    refine ⟨p, a1, ha1, ?_⟩
    rcases diskReadBlock_ok_iff.mp hread with ⟨hc, rfl, rfl⟩ | ⟨hc, rfl, hin, rfl⟩
    · rw [if_pos hne] at h
      obtain ⟨_, s3, hfree, h⟩ := (Prog.bind_ok_iff _ _ _ _ _).mp h
      obtain ⟨rfl, rfl⟩ := (Prog.pure_ok_iff _ _ _ _).mp h
      obtain ⟨a2, ha2, rfl⟩ := onArena_ok_iff.mp hfree
      exact Or.inl ⟨hc, rfl, a2, ha2, rfl⟩
    · rw [if_neg (by simp)] at h
      obtain ⟨_, s3, hcopy, h⟩ := (Prog.bind_ok_iff _ _ _ _ _).mp h
      obtain ⟨_, s4, hset, h⟩ := (Prog.bind_ok_iff _ _ _ _ _).mp h
      obtain ⟨_, s5, hfree, h⟩ := (Prog.bind_ok_iff _ _ _ _ _).mp h
      obtain ⟨rfl, rfl⟩ := (Prog.pure_ok_iff _ _ _ _).mp h
      obtain rfl := storeMem_ok_iff.mp hcopy
      obtain rfl := setStream_ok_iff.mp hset
      obtain ⟨a2, ha2, rfl⟩ := onArena_ok_iff.mp hfree
      exact Or.inr ⟨hc, rfl, hin, a2, ha2, rfl⟩
  · rintro ⟨p, a1, ha1, hcase⟩
    refine ⟨p, _, onArena_ok_iff.mpr ⟨a1, ha1, rfl⟩, (Prog.bind_ok_iff _ _ _ _ _).mpr ?_⟩
    rw [hd]
    rcases hcase with ⟨hc, rfl, a2, ha2, rfl⟩ | ⟨hc, rfl, hin, a2, ha2, rfl⟩
    · refine ⟨_, _, diskReadBlock_ok_iff.mpr (Or.inl ⟨hc, rfl, rfl⟩), ?_⟩
      rw [if_pos hne]
      exact (Prog.bind_ok_iff _ _ _ _ _).mpr ⟨(), _, onArena_ok_iff.mpr ⟨a2, ha2, rfl⟩, rfl⟩
    · refine ⟨_, _, diskReadBlock_ok_iff.mpr (Or.inr ⟨hc, rfl, hin, rfl⟩), ?_⟩
      rw [if_neg (by simp)]
      refine (Prog.bind_ok_iff _ _ _ _ _).mpr ⟨(), _, storeMem_ok_iff.mpr rfl, ?_⟩
      refine (Prog.bind_ok_iff _ _ _ _ _).mpr ⟨(), _, setStream_ok_iff.mpr rfl, ?_⟩
      exact (Prog.bind_ok_iff _ _ _ _ _).mpr ⟨(), _, onArena_ok_iff.mpr ⟨a2, ha2, rfl⟩, rfl⟩

/-- **`disk_stream_write`, step by step.** -/
theorem diskStreamWrite_ok_iff (h0 : n ≠ 0) (hd : (s.streams stream).disk = primaryDisk) :
    diskStreamWrite stream buffer n s = .ok code s' ↔
      ∃ p a1, heapMalloc (localBufferSize n) s.arena = .ok p a1 ∧
        ((diskStreamGetAffectedSectors n % 256 = 0 ∧ code = invalidArgument ∧
            ∃ a2, heapFree p a1 = .ok () a2 ∧ s' = { s with arena := a2 }) ∨
          (diskStreamGetAffectedSectors n % 256 ≠ 0 ∧ code = ok ∧
            (s.streams stream).pos / 512 + diskStreamGetAffectedSectors n % 256 ≤ s.ata.sectors ∧
            ∃ a2, heapFree p ⟨a1.heap, writeMem s a1.mem stream buffer p n⟩ = .ok () a2 ∧
              s' = ⟨a2, ⟨s.ata.sectors, blit s.ata.image (512 * ((s.streams stream).pos / 512))
                  (slice (writeMem s a1.mem stream buffer p n) p
                    (512 * (diskStreamGetAffectedSectors n % 256)))⟩, s.disks,
                Function.update s.streams stream ((s.streams stream).advance n)⟩)) := by
  have hne : invalidArgument ≠ ok := by decide
  unfold diskStreamWrite
  rw [if_neg h0, Prog.get_bind, Prog.bind_ok_iff]
  unfold Sys.malloc Sys.free
  constructor
  · rintro ⟨p, s1, hmalloc, h⟩
    obtain ⟨a1, ha1, rfl⟩ := onArena_ok_iff.mp hmalloc
    obtain ⟨res, s2, hread, h⟩ := (Prog.bind_ok_iff _ _ _ _ _).mp h
    rw [hd] at hread
    refine ⟨p, a1, ha1, ?_⟩
    rcases diskReadBlock_ok_iff.mp hread with ⟨hc, rfl, rfl⟩ | ⟨hc, rfl, hin, rfl⟩
    · rw [if_pos hne] at h
      obtain ⟨_, s3, hfree, h⟩ := (Prog.bind_ok_iff _ _ _ _ _).mp h
      obtain ⟨rfl, rfl⟩ := (Prog.pure_ok_iff _ _ _ _).mp h
      obtain ⟨a2, ha2, rfl⟩ := onArena_ok_iff.mp hfree
      exact Or.inl ⟨hc, rfl, a2, ha2, rfl⟩
    · rw [if_neg (by simp)] at h
      obtain ⟨_, s3, hcopy, h⟩ := (Prog.bind_ok_iff _ _ _ _ _).mp h
      obtain rfl := storeMem_ok_iff.mp hcopy
      obtain ⟨res, s4, hwrite, h⟩ := (Prog.bind_ok_iff _ _ _ _ _).mp h
      rw [hd] at hwrite
      rcases diskWriteBlock_ok_iff.mp hwrite with ⟨hc', -, -⟩ | ⟨-, rfl, -, rfl⟩
      · exact absurd hc' hc
      · rw [if_neg (by simp)] at h
        obtain ⟨_, s5, hset, h⟩ := (Prog.bind_ok_iff _ _ _ _ _).mp h
        obtain ⟨_, s6, hfree, h⟩ := (Prog.bind_ok_iff _ _ _ _ _).mp h
        obtain ⟨rfl, rfl⟩ := (Prog.pure_ok_iff _ _ _ _).mp h
        obtain rfl := setStream_ok_iff.mp hset
        obtain ⟨a2, ha2, rfl⟩ := onArena_ok_iff.mp hfree
        exact Or.inr ⟨hc, rfl, hin, a2, ha2, rfl⟩
  · rintro ⟨p, a1, ha1, hcase⟩
    refine ⟨p, _, onArena_ok_iff.mpr ⟨a1, ha1, rfl⟩, (Prog.bind_ok_iff _ _ _ _ _).mpr ?_⟩
    rw [hd]
    rcases hcase with ⟨hc, rfl, a2, ha2, rfl⟩ | ⟨hc, rfl, hin, a2, ha2, rfl⟩
    · refine ⟨_, _, diskReadBlock_ok_iff.mpr (Or.inl ⟨hc, rfl, rfl⟩), ?_⟩
      rw [if_pos hne]
      exact (Prog.bind_ok_iff _ _ _ _ _).mpr ⟨(), _, onArena_ok_iff.mpr ⟨a2, ha2, rfl⟩, rfl⟩
    · refine ⟨_, _, diskReadBlock_ok_iff.mpr (Or.inr ⟨hc, rfl, hin, rfl⟩), ?_⟩
      rw [if_neg (by simp)]
      refine (Prog.bind_ok_iff _ _ _ _ _).mpr ⟨(), _, storeMem_ok_iff.mpr rfl, ?_⟩
      refine (Prog.bind_ok_iff _ _ _ _ _).mpr
        ⟨_, _, diskWriteBlock_ok_iff.mpr (Or.inr ⟨hc, rfl, hin, rfl⟩), ?_⟩
      rw [if_neg (by simp)]
      refine (Prog.bind_ok_iff _ _ _ _ _).mpr ⟨(), _, setStream_ok_iff.mpr rfl, ?_⟩
      exact (Prog.bind_ok_iff _ _ _ _ _).mpr ⟨(), _, onArena_ok_iff.mpr ⟨a2, ha2, rfl⟩, rfl⟩

end Calls

/-! ## 3. What arrives, and what is left alone -/

/-- The number of sectors is the length rounded up. -/
theorem affectedSectors_eq (n : Nat) : diskStreamGetAffectedSectors n = (n + 511) / 512 := by
  unfold diskStreamGetAffectedSectors
  simp only [kernelDefaultDiskSectorSize]
  split <;> omega

/-- Both copying loops are copies between the caller's bytes and those of the local buffer from
the in-sector offset on. -/
theorem copyFromLocal_eq (buffer localBuffer pos : Nat) : ∀ (fuel i : Nat) (m : Mem),
    copyFromLocal buffer localBuffer pos fuel i m
      = copyLoop buffer (localBuffer + pos % 512) fuel i m
  | 0, _, _ => rfl
  | fuel + 1, i, m => by
    rw [copyFromLocal, copyLoop, copyFromLocal_eq _ _ _ fuel, localIndex, Nat.add_assoc]

theorem copyToLocal_eq (buffer localBuffer pos : Nat) : ∀ (fuel i : Nat) (m : Mem),
    copyToLocal buffer localBuffer pos fuel i m
      = copyLoop (localBuffer + pos % 512) buffer fuel i m
  | 0, _, _ => rfl
  | fuel + 1, i, m => by
    rw [copyToLocal, copyLoop, copyToLocal_eq _ _ _ fuel, localIndex, Nat.add_assoc]

/-- The bytes `buffer .. buffer + n - 1` are the caller's: none of them is in a free block. -/
def Owned (a : Arena) (buffer n : Nat) : Prop := ∀ i < n, ¬ InFree a (buffer + i)

/-- The bytes a request at `pos` stands for are among the sectors its length alone suggests. -/
def FitsSectors (pos n : Nat) : Prop := pos % 512 + n ≤ 512 * diskStreamGetAffectedSectors n

/-- The local buffer of a call that is not refused is as large as its sectors. -/
theorem localBufferSize_eq {n : Nat} (hn : n < 2 ^ 32)
    (hc : diskStreamGetAffectedSectors n % 256 ≠ 0) :
    localBufferSize n = 512 * diskStreamGetAffectedSectors n := by
  unfold localBufferSize
  rw [affectedSectors_eq] at hc ⊢
  simp only [kernelDefaultDiskSectorSize]
  omega

section Spec

variable {stream buffer n : Nat} {s s' : Sys} {code : Int}

/-- **`disk_stream_read` on the kernel's heap.**  It is refused exactly when the number of sectors
is 0 in eight bits; otherwise the stream moves on, nothing but the caller's bytes is touched, and
the bytes that are among the sectors the device was asked for are those of the disk. -/
theorem diskStreamRead_spec (hk : KernelHeap s.arena)
    (hd : (s.streams stream).disk = primaryDisk) (h0 : n ≠ 0) (hn : n < 2 ^ 32)
    (h : diskStreamRead stream buffer n s = .ok code s') :
    KernelHeap s'.arena ∧ s'.ata = s.ata ∧ s'.disks = s.disks ∧
      ((diskStreamGetAffectedSectors n % 256 = 0 ∧ code = invalidArgument ∧
          s'.streams = s.streams ∧ Frame ∅ s.arena s'.arena) ∨
        (diskStreamGetAffectedSectors n % 256 ≠ 0 ∧ code = ok ∧
          s'.streams = Function.update s.streams stream ((s.streams stream).advance n) ∧
          Frame (Set.Ico buffer (buffer + n)) s.arena s'.arena ∧
          (Owned s.arena buffer n → ∀ i < n,
            (s.streams stream).pos % 512 + i < 512 * (diskStreamGetAffectedSectors n % 256) →
            s'.arena.mem (buffer + i) = s.ata.image ((s.streams stream).pos + i)))) := by
  have hsize : localBufferSize n < 2 ^ 32 := Nat.mod_lt _ (by decide)
  obtain ⟨p, a1, hmalloc, hcase⟩ := (diskStreamRead_ok_iff h0 hd).mp h
  rcases hcase with ⟨hc, rfl, a2, hfree, rfl⟩ | ⟨hc, rfl, -, a2, hfree, rfl⟩
  · obtain ⟨hk2, hmem, hs, ht, htaken, b, hp, hpos, -, hadd⟩ :=
      hk.temporary hsize hmalloc hfree rfl
    refine ⟨hk2, rfl, rfl, Or.inl ⟨hc, rfl, rfl, hs, ht, htaken, fun x hx _ => ?_⟩⟩
    rw [hmem, fill_of_not_mem, hadd.mem]
    rintro ⟨h1, h2⟩
    exact hx (hadd.inFree hk (by omega) (by omega))
  · obtain ⟨hk2, hmem, hs, ht, htaken, b, hp, hpos, hfits, hadd⟩ :=
      hk.temporary hsize hmalloc hfree rfl
    rw [localBufferSize_eq hn hc] at hfits hpos hadd
    dsimp only at hmem
    -- the sectors that were asked for lie in the run
    have hrun : ∀ x, p ≤ x → x < p + 512 * (diskStreamGetAffectedSectors n % 256) →
        InFree s.arena x := fun x h1 h2 => hadd.inFree hk (by omega) (by omega)
    have hblock : ∀ x, p ≤ x → x < p + 4096 → InFree s.arena x :=
      fun x h1 h2 => hadd.inFree hk (by omega) (by omega)
    refine ⟨hk2, rfl, rfl, Or.inr ⟨hc, rfl, rfl, ⟨hs, ht, htaken, fun x hx hW => ?_⟩, ?_⟩⟩
    · have hW' : ¬ (buffer ≤ x ∧ x < buffer + n) := fun hc' => hW (Set.mem_Ico.mpr hc')
      rw [hmem, fill_of_not_mem fun hc' => hx (hblock x hc'.1 hc'.2), readMem, copyFromLocal_eq,
        copyLoop_of_not_mem (by omega), blit_of_not_mem, hadd.mem]
      rw [length_slice]
      exact fun hc' => hx (hrun x hc'.1 hc'.2)
    · intro howned i hi hin
      have hsrc : ¬ (buffer + 0 ≤ p + (s.streams stream).pos % 512 + i ∧
          p + (s.streams stream).pos % 512 + i < buffer + 0 + n) := by
        rintro ⟨h1, h2⟩
        refine howned (p + (s.streams stream).pos % 512 + i - buffer) (by omega) ?_
        exact hrun _ (by omega) (by omega)
      rw [hmem, fill_of_not_mem fun hc' => howned i hi (hblock _ hc'.1 hc'.2), readMem,
        copyFromLocal_eq, copyLoop_of_mem (by omega) (by omega) hsrc, Nat.add_assoc, blit_add
        (by rw [length_slice]; exact hin), getElem_slice]
      congr 1
      omega

/-- **`disk_stream_write` on the kernel's heap**, for a request that fits its sectors: refused
exactly when the number of sectors is 0 in eight bits; otherwise the stream moves on and the
bytes of the disk that lie in the sectors that were transferred are replaced -- by the caller's
`v`, as long as these are not in free blocks.  No memory is touched. -/
theorem diskStreamWrite_effect (hk : KernelHeap s.arena)
    (hd : (s.streams stream).disk = primaryDisk) (h0 : n ≠ 0) (hn : n < 2 ^ 32)
    (hfit : FitsSectors (s.streams stream).pos n)
    (h : diskStreamWrite stream buffer n s = .ok code s') :
    KernelHeap s'.arena ∧ s'.disks = s.disks ∧ s'.ata.sectors = s.ata.sectors ∧
      Frame ∅ s.arena s'.arena ∧
      ((diskStreamGetAffectedSectors n % 256 = 0 ∧ code = invalidArgument ∧
          s'.streams = s.streams ∧ s'.ata.image = s.ata.image) ∨
        (diskStreamGetAffectedSectors n % 256 ≠ 0 ∧ code = ok ∧
          s'.streams = Function.update s.streams stream ((s.streams stream).advance n) ∧
          ∃ v : Mem, (Owned s.arena buffer n → ∀ i < n,
              v ((s.streams stream).pos + i) = s.arena.mem (buffer + i)) ∧
            ∀ x, s'.ata.image x =
              if (s.streams stream).pos ≤ x ∧ x < (s.streams stream).pos + n ∧
                  x < 512 * ((s.streams stream).pos / 512 + diskStreamGetAffectedSectors n % 256)
              then v x else s.ata.image x)) := by
  have hsize : localBufferSize n < 2 ^ 32 := Nat.mod_lt _ (by decide)
  obtain ⟨p, a1, hmalloc, hcase⟩ := (diskStreamWrite_ok_iff h0 hd).mp h
  rcases hcase with ⟨hc, rfl, a2, hfree, rfl⟩ | ⟨hc, rfl, -, a2, hfree, rfl⟩
  · obtain ⟨hk2, hmem, hs, ht, htaken, b, hp, hpos, -, hadd⟩ :=
      hk.temporary hsize hmalloc hfree rfl
    refine ⟨hk2, rfl, rfl, ⟨hs, ht, htaken, fun x hx _ => ?_⟩, Or.inl ⟨hc, rfl, rfl, rfl⟩⟩
    rw [hmem, fill_of_not_mem, hadd.mem]
    rintro ⟨h1, h2⟩
    exact hx (hadd.inFree hk (by omega) (by omega))
  · obtain ⟨hk2, hmem, hs, ht, htaken, b, hp, hpos, hfits, hadd⟩ :=
      hk.temporary hsize hmalloc hfree rfl
    rw [localBufferSize_eq hn hc] at hfits hpos hadd
    dsimp only at hmem
    have hrun : ∀ x, p ≤ x → x < p + 512 * diskStreamGetAffectedSectors n → InFree s.arena x :=
      fun x h1 h2 => hadd.inFree hk (by omega) (by omega)
    have hblock : ∀ x, p ≤ x → x < p + 4096 → InFree s.arena x :=
      fun x h1 h2 => hadd.inFree hk (by omega) (by omega)
    have hcle : diskStreamGetAffectedSectors n % 256 ≤ diskStreamGetAffectedSectors n :=
      Nat.mod_le _ _
    unfold FitsSectors at hfit
    refine ⟨hk2, rfl, rfl, ⟨hs, ht, htaken, fun x hx _ => ?_⟩, Or.inr ⟨hc, rfl, rfl,
      fun x => writeMem s a1.mem stream buffer p n (p + (s.streams stream).pos % 512 +
        (x - (s.streams stream).pos)), fun howned i hi => ?_, fun x => ?_⟩⟩
    · rw [hmem, fill_of_not_mem fun hc' => hx (hblock x hc'.1 hc'.2), writeMem, copyToLocal_eq,
        copyLoop_of_not_mem, blit_of_not_mem, hadd.mem]
      · rw [length_slice]
        exact fun hc' => hx (hrun x hc'.1 (by omega))
      · exact fun hc' => hx (hrun x (by omega) (by omega))
    · dsimp only
      rw [Nat.add_sub_cancel_left, writeMem, copyToLocal_eq, copyLoop_of_mem (by omega) (by omega),
        blit_of_not_mem, hadd.mem]
      · rw [length_slice]
        exact fun hc' => howned i hi (hrun _ hc'.1 (by omega))
      · exact fun hc' => howned i hi (hrun _ (by omega) (by omega))
    · by_cases hx : 512 * ((s.streams stream).pos / 512) ≤ x ∧
          x < 512 * ((s.streams stream).pos / 512) + 512 * (diskStreamGetAffectedSectors n % 256)
      · obtain ⟨k, rfl⟩ := Nat.exists_eq_add_of_le hx.1
        simp only
        rw [blit_add (by rw [length_slice]; omega), getElem_slice]
        by_cases hin : (s.streams stream).pos % 512 ≤ k ∧ k < (s.streams stream).pos % 512 + n
        · rw [if_pos (by omega)]
          congr 1
          omega
        · rw [if_neg (by omega), writeMem, copyToLocal_eq, copyLoop_of_not_mem (by omega), blit_add
            (by rw [length_slice]; omega), getElem_slice]
      · rw [if_neg (by omega)]
        exact blit_of_not_mem (by rw [length_slice]; omega)

/-- **`disk_stream_write` of bytes that are the caller's own**: what is written is what they were when the
call began. -/
theorem diskStreamWrite_spec (hk : KernelHeap s.arena)
    (hd : (s.streams stream).disk = primaryDisk) (h0 : n ≠ 0) (hn : n < 2 ^ 32)
    (hfit : FitsSectors (s.streams stream).pos n) (howned : Owned s.arena buffer n)
    (h : diskStreamWrite stream buffer n s = .ok code s') :
    KernelHeap s'.arena ∧ s'.disks = s.disks ∧ s'.ata.sectors = s.ata.sectors ∧
      Frame ∅ s.arena s'.arena ∧
      ((diskStreamGetAffectedSectors n % 256 = 0 ∧ code = invalidArgument ∧
          s'.streams = s.streams ∧ s'.ata.image = s.ata.image) ∨
        (diskStreamGetAffectedSectors n % 256 ≠ 0 ∧ code = ok ∧
          s'.streams = Function.update s.streams stream ((s.streams stream).advance n) ∧
          ∀ x, s'.ata.image x =
            if (s.streams stream).pos ≤ x ∧ x < (s.streams stream).pos + n ∧
                x < 512 * ((s.streams stream).pos / 512 + diskStreamGetAffectedSectors n % 256)
            then s.arena.mem (buffer + (x - (s.streams stream).pos)) else s.ata.image x)) := by
  obtain ⟨hk', hdisks, hsectors, hframe, hcase⟩ := diskStreamWrite_effect hk hd h0 hn hfit h
  refine ⟨hk', hdisks, hsectors, hframe, hcase.imp id ?_⟩
  rintro ⟨hc, hcode, hst, v, hv, himage⟩
  refine ⟨hc, hcode, hst, fun x => (himage x).trans ?_⟩
  split
  · next hx =>
    obtain ⟨i, rfl⟩ := Nat.exists_eq_add_of_le hx.1
    rw [Nat.add_sub_cancel_left]
    exact hv howned i (by omega)
  · rfl

end Spec

end KokoOs
