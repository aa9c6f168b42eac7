/-
# Starting the kernel (`kernel.c`, `memory_init`, `disk_init`)

What `kernel_main` does before it enables interrupts, but for the terminal and the interrupt table,
which share no memory with the rest: the heap is made, the tables of files are cleared, the volume is
mounted and the page tables are built.

* **The start.**  `memory_init` makes the kernel's heap of whatever it finds (`memoryInit_run`), and
  what `kernel_main` leaves is a mounted volume, no open file, and the page tables (`Started`,
  `kernelStart_runs`).
* **Afterwards.**  `kernel_invariant` is about everything that can happen then.  Nothing is assumed
  of memory, the heap or the tables at the start: the kernel that has been started is one on which
  the calls on files, `paging_set` and all other uses of memory can be mixed in any order, and the
  page tables, the files that are open and the file allocation table never get in each other's way.

The step of the invariant is that of the page tables and that of the disk side by side
(`KernelKept.step`); what makes them fit together is that a call of `paging_set` is, for the files, just
another client of the kernel's memory.
-/
import KokoOs.PagingRuns

namespace KokoOs

open Bytes Prog
open Runs (Run AllSteps)

/-! ## 1. The steps of `kernel_main` -/

/-- `memory_init`; the words of the table are what memory holds at its address. -/
def memoryInit : HeapM Unit := do
  let a ← get
  match heapCreateTable a.heap.table.entries kernelMaxHeapMemory with
  | .error _ => throw (.panic "Failed to initialize heap table!")
  | .ok table =>
    match heapCreate a.mem memoryHeapStartAddress table with
    | .error _ => throw (.panic "Failed to initialize heap!")
    | .ok a' => set a'

/-- Assignments to fields of `primary_disk`. -/
def setPrimaryDisk (g : Disk → Disk) : FileM FatFileDescriptor Unit :=
  modify fun f => { f with sys := { f.sys with
    disks := Function.update f.sys.disks primaryDisk (g (f.sys.disks primaryDisk)) } }

/-- `disk_init`. -/
def diskInit : FileM FatFileDescriptor Unit := do
  setPrimaryDisk fun d => { d with id := 0, type := 0, sectorSize := kernelDefaultDiskSectorSize }
  let fs ← fsResolve fileSystemOf primaryDisk
  setPrimaryDisk fun d => { d with fs }

/-- `init_kernel_paging`: `kernel_chunk`, and the directory that is loaded into `cr3`. -/
def initKernelPaging : FileM FatFileDescriptor (Nat × Nat) := do
  let chunk ← onSys (onArena (pagingCreateChunk 0x7))
  let f ← get
  return (chunk, u32 f.sys.arena.mem chunk)

/-- `kernel_main` up to `paging_enable_paging`. -/
@[irreducible]
def kernelStart : FileM FatFileDescriptor (Nat × Nat) := do
  onSys (onArena memoryInit)
  fsInit
  diskInit
  initKernelPaging

/-! ## 2. What they leave -/

section

variable {stop : Halt → Prop} {f f' f0 : FileState FatFileDescriptor} {a : Arena} {j : Nat}

/-- `memory_init` makes the kernel's heap of whatever it finds. -/
theorem memoryInit_run (a : Arena) : ∃ a', memoryInit a = .ok () a' ∧ KernelHeap a' ∧
    (freeBlocks a'.heap).card = 25600 := by
  have htable : heapCreateTable a.heap.table.entries kernelMaxHeapMemory =
      .ok ⟨25600, a.heap.table.entries⟩ := rfl
  obtain ⟨a', hcreate⟩ : ∃ a', heapCreate a.mem memoryHeapStartAddress
      ⟨25600, a.heap.table.entries⟩ = .ok a' := by
    have haligned : heapValidateAlignment memoryHeapStartAddress = true := by decide
    have hend : heapValidateAlignment
        ((memoryHeapStartAddress + 25600 * kernelHeapBlockSize) % 2 ^ 32) = true := by decide
    have hvalid : heapValidateTable memoryHeapStartAddress
        ((memoryHeapStartAddress + 25600 * kernelHeapBlockSize) % 2 ^ 32)
        ⟨25600, a.heap.table.entries⟩ = ok := by
      simp [heapValidateTable, memoryHeapStartAddress, kernelHeapBlockSize]
    simp only [heapCreate, haligned, hend, hvalid]
    exact ⟨_, rfl⟩
  obtain ⟨hstart, -, -, htotal, hzero⟩ := heapCreate_ok (by decide) htable hcreate
  have hfresh : FreshHeap ⟨a', []⟩ := ⟨rfl, _, _, _, _, _, by decide, by decide, htable, hcreate⟩
  refine ⟨a', ?_, ⟨hfresh.inv.1, hstart, htotal⟩, ?_⟩
  · unfold memoryInit
    refine (bind_of_ok (m := get) rfl _).trans ?_
    rw [htable]
    dsimp only
    rw [hcreate]
    rfl
  · have hall : freeBlocks a'.heap = Finset.range a'.heap.table.total :=
      Finset.filter_true_of_mem fun i hi => by
        rw [hzero i (by rw [← htotal]; exact Finset.mem_range.mp hi)]
        decide
    rw [hall, Finset.card_range, htotal]
    decide

/-- The kernel in front of the mount: a fresh heap, no file open, and `primary_disk` set up. -/
structure BeforeMount (f f' : FileState FatFileDescriptor) : Prop where
  kernel : KernelHeap f'.sys.arena
  free : (freeBlocks f'.sys.arena.heap).card = 25600
  fileSystems : f'.fileSystems 0 = some .fat16
  fileDescriptors : ∀ i, f'.fileDescriptors i = none
  id : (f'.sys.disks primaryDisk).id = 0
  sectorSize : (f'.sys.disks primaryDisk).sectorSize = 512
  ata : f'.sys.ata = f.sys.ata

theorem BeforeMount.header (h : BeforeMount f f') : volumeHeader f'.sys = volumeHeader f.sys := by
  unfold volumeHeader
  rw [h.ata]

/-- A volume is mounted behind `disk_init`: `fat16_resolve` has accepted it. -/
structure AfterMount (f1 f' : FileState FatFileDescriptor) (s : Sys) (p : FatPrivate) : Prop where
  resolved : fat16Resolve primaryDisk f1.sys = .ok ok s
  mounted : Mounted s p
  ata : s.ata = f1.sys.ata
  kernel : KernelHeap s.arena
  card : Mountable f1.sys → 25595 ≤ (freeBlocks s.arena.heap).card
  state : f' = { f1 with sys := s }

/-- The search of `fs_resolve` asks the only file system there is. -/
theorem fsResolve_runs (h : BeforeMount f f0) (hs : ¬ Mountable f0.sys → ∀ e, stop e) :
    Prog.Runs stop (fsResolve fileSystemOf primaryDisk) f0 fun fs f' => fs = some .fat16 ∧
      ∃ s p, AfterMount f0 f' s p := by
  have hmount := fat16Resolve_runs h.kernel h.id h.sectorSize hs
  have hloop : fsResolve fileSystemOf primaryDisk f0 = (onSys (fat16Resolve primaryDisk) >>= fun res =>
      if res = ok then pure (some FileSystemRef.fat16)
      else fsResolveLoop fileSystemOf primaryDisk 9 1) f0 := by
    unfold fsResolve fsResolveLoop
    rw [get_bind, h.fileSystems]
    rfl
  refine Prog.Runs.congr hloop (Runs.bind (Q := fun res f' => res = ok ∧ ∃ s p, AfterMount f0 f' s p)
    (Runs.zoom hmount.with_run ?_) ?_)
  · rintro res s ⟨hrun, rfl, p, hm, -, ht, hata, hcard⟩
    have hcount := h.free
    exact ⟨rfl, s, p, hrun, hm, hata, ht.kernel, fun hmountable => by
      have := hcard hmountable
      omega, rfl⟩
  · rintro res f' ⟨rfl, hafter⟩
    rw [if_pos rfl]
    exact Runs.pure ⟨rfl, hafter⟩

/-- Setting a field of `primary_disk` to what it is. -/
theorem setPrimaryDisk_same {g : Disk → Disk} (h : g (f.sys.disks primaryDisk) = f.sys.disks primaryDisk) :
    setPrimaryDisk g f = .ok () f := by
  have hsame : Function.update f.sys.disks primaryDisk (g (f.sys.disks primaryDisk)) = f.sys.disks := by
    rw [h, Function.update_eq_self]
  change EStateM.Result.ok () { f with sys := { f.sys with disks := _ } } = _
  rw [hsame]

/-- `disk_init`, on the tables that `fs_init` leaves. -/
theorem diskInit_runs (hk : KernelHeap f.sys.arena) (hfree : (freeBlocks f.sys.arena.heap).card = 25600)
    (hfs : f.fileSystems 0 = some .fat16) (hempty : ∀ i, f.fileDescriptors i = none)
    (hs : ∀ f1, BeforeMount f f1 → ¬ Mountable f1.sys → ∀ e, stop e) :
    Prog.Runs stop diskInit f fun _ f' => ∃ f1 s p, BeforeMount f f1 ∧ AfterMount f1 f' s p := by
  unfold diskInit
  refine Runs.bind (Runs.modify (Q := fun _ f1 => BeforeMount f f1) ⟨hk, hfree, hfs, hempty, ?_, ?_, rfl⟩)
    ?_
  · simp
  · simp
  rintro - f1 hbefore
  refine Runs.bind (fsResolve_runs hbefore (hs f1 hbefore)) ?_
  rintro fs f2 ⟨rfl, s, p, hafter⟩
  refine Runs.of_ok (setPrimaryDisk_same ?_) ⟨f1, s, p, hbefore, hafter⟩
  rw [hafter.state]
  dsimp only
  rw [← hafter.mounted.fs]

/-- `init_kernel_paging`. -/
theorem initKernelPaging_runs (hk : KernelHeap f.sys.arena)
    (hs : (freeBlocks f.sys.arena.heap).card < 1026 → ∀ e, stop e) :
    Prog.Runs stop initKernelPaging f fun r f' => ∃ a K cb db tb,
      r = (blockAt cb, u32 a.mem (blockAt cb)) ∧ ChunkMade f.sys.arena 7 a K cb db tb ∧
      f' = { f with sys := { f.sys with arena := a } } := by
  unfold initKernelPaging
  let Made (chunk : Nat) (a : Arena) : Prop :=
    ∃ K cb db tb, chunk = blockAt cb ∧ ChunkMade f.sys.arena 7 a K cb db tb
  have harena : Prog.Runs stop (onArena (pagingCreateChunk 0x7)) f.sys fun chunk s =>
      ∃ a, Made chunk a ∧ s = { f.sys with arena := a } :=
    Runs.zoom (pagingCreateChunk_runs hk 0x7 hs) fun _ a h => ⟨a, h, rfl⟩
  have hsys : Prog.Runs stop (onSys (onArena (pagingCreateChunk 0x7))) f fun chunk f' =>
      ∃ a, Made chunk a ∧ f' = { f with sys := { f.sys with arena := a } } :=
    Runs.zoom harena fun _ s ⟨a, h, hs⟩ => ⟨a, h, hs ▸ rfl⟩
  refine Runs.bind hsys ?_
  rintro chunk f' ⟨a, ⟨K, cb, db, tb, rfl, hmade⟩, rfl⟩
  exact ⟨a, K, cb, db, tb, rfl, hmade, rfl⟩

/-- What `kernel_main` leaves in `f'`: a mounted volume, no open file, and the page tables. -/
structure Started (f f' f1 : FileState FatFileDescriptor) (s : Sys) (chunk directory : Nat) : Prop where
  before : BeforeMount f f1
  mount : ∃ p, AfterMount f1 { f1 with sys := s } s p
  made : ∃ K cb db tb, chunk = blockAt cb ∧ ChunkMade s.arena 7 f'.sys.arena K cb db tb
  directory : directory = u32 f'.sys.arena.mem chunk
  state : f' = { f1 with sys := { s with arena := f'.sys.arena } }

/-- `memory_init` and `fs_init` come to a fresh state. -/
theorem kernelStart_eq (f : FileState FatFileDescriptor) : ∃ a, KernelHeap a ∧
    (freeBlocks a.heap).card = 25600 ∧ kernelStart f =
      (diskInit >>= fun _ => initKernelPaging) (initFiles { f.sys with arena := a }) := by
  obtain ⟨a, hinit, hk, hfree⟩ := memoryInit_run f.sys.arena
  have hmemory : onSys (onArena memoryInit) f = .ok () { f with sys := { f.sys with arena := a } } :=
    zoom_ok_iff.mpr ⟨_, zoom_ok_iff.mpr ⟨a, hinit, rfl⟩, rfl⟩
  refine ⟨a, hk, hfree, ?_⟩
  unfold kernelStart
  exact (bind_of_ok hmemory _).trans (bind_of_ok (fsInit_run _) _)

/-- **The start of the kernel**, from any state of the machine. -/
theorem kernelStart_runs (hs : ∀ f1, BeforeMount f f1 → ¬ Mountable f1.sys → ∀ e, stop e) :
    Prog.Runs stop kernelStart f fun r f' => ∃ f1 s, Started f f' f1 s r.1 r.2 := by
  obtain ⟨a, hk, hfree, hrest⟩ := kernelStart_eq f
  refine Runs.congr hrest ?_
  refine Runs.bind (diskInit_runs hk hfree rfl (fun _ => rfl) fun f1 h => hs f1 ⟨h.kernel, h.free,
    h.fileSystems, h.fileDescriptors, h.id, h.sectorSize, h.ata⟩) ?_
  rintro - f2 ⟨f1, s, p, hbefore, hafter⟩
  have hbefore' : BeforeMount f f1 := ⟨hbefore.kernel, hbefore.free, hbefore.fileSystems,
    hbefore.fileDescriptors, hbefore.id, hbefore.sectorSize, hbefore.ata⟩
  obtain rfl := hafter.state
  refine (initKernelPaging_runs hafter.kernel fun hfew => hs f1 hbefore' fun hmountable => ?_).mono ?_
  · have := hafter.card hmountable
    change (freeBlocks s.arena.heap).card < 1026 at hfew
    omega
  · rintro r f' ⟨a', K, cb, db, tb, rfl, hmade, rfl⟩
    exact ⟨f1, s, hbefore', ⟨p, hafter⟩, ⟨K, cb, db, tb, rfl, hmade⟩, rfl, rfl⟩

/-! ## 3. Whatever the kernel does -/

/-- The volume, the page tables and the open files beside each other. -/
structure KernelKept (image : Mem) (p : FatPrivate) (j : Nat) (K : Set Nat) (cb db : Nat)
    (tb : Nat → Nat) (f : FileState FatFileDescriptor) (g : PageMap) : Prop where
  paged : Paged K cb db tb p f g
  disk : DiskKept image p j f

/-- **One move.** -/
theorem KernelKept.step {image : Mem} {p : FatPrivate} {K : Set Nat} {cb db : Nat} {tb : Nat → Nat}
    {g : PageMap} {move : PagedMove} (h : KernelKept image p j K cb db tb f g) (hp : Known image p j)
    (hstep : PagedStep K (blockAt cb) f move f') :
    KernelKept image p j K cb db tb f' (PageMap.after g move) := by
  obtain ⟨m, hmove⟩ := h.paged.kernelStep hstep
  exact ⟨h.paged.step hp.readable hstep, h.disk.step hp hmove⟩

/-- The start of the kernel returns on every volume that can be mounted. -/
theorem BeforeMount.mountable (h : BeforeMount f f0) (hm : Mountable f.sys) : Mountable f0.sys := by
  refine ⟨h.free ▸ by decide, ?_, ?_, ?_, ?_, ?_⟩ <;> rw [h.header]
  · exact hm.signature
  · exact hm.entries
  · exact hm.sector
  · exact h.ata ▸ hm.inside
  · exact h.ata ▸ hm.ending

end

end KokoOs
