/-
# Mounting a volume

What `fat16_resolve` leaves in the private data of a disk that it accepts (`fat16Resolve_runs`):
the header is the one of the first sector, the root directory is loaded, and the clusters begin
behind it.

* **The root directory.**  `RootOf` says how the array in memory and the directory on the disk belong
  together.  There are as many items as there are before the end marker, wherever that is, and the items
  have the bytes of the disk as far as their sectors have been asked for: the number of sectors is passed
  in eight bits, so it is not all of them if there are more than 4096 entries (`RootOf.loaded`).
* **The mount.**  Between its first and its last step the disk has private data that are not complete
  (`Mounting`); reading into new objects, and storing private data that keep their streams, go on with
  it.
* **Success.**  The same walk shows that mounting a small volume whose directory ends (`Mountable`) never
  fails.
-/
import KokoOs.Fat16Frame

namespace KokoOs

open Bytes Prog

/-! ## 1. Allocations of any size -/

/-- Memory of the heap that is written is not outside of it. -/
theorem Touches.inside {T W : Set Nat} {a a' : Arena} (h : Touches T W a a')
    (hW : ∀ x ∈ W, ¬ OutsideHeap x) : Touches T ∅ a a' :=
  ⟨h.kernel, h.held, h.bytes, fun x hx _ => h.outside x hx fun hin => hW x hin hx⟩

theorem Reads.inside {T W : Set Nat} {s s' : Sys} (h : Reads T W s s')
    (hW : ∀ x ∈ W, ¬ OutsideHeap x) : Reads T ∅ s s' :=
  ⟨⟨h.touches.inside hW, h.disks, h.streams, h.sectors⟩, h.image⟩

/-- The `n` bytes at `q` are new: they lie in the heap, and no object of `base` is among them. -/
def NewBytes (base : Arena) (q n : Nat) : Prop :=
  (∀ x ∈ Set.Ico q (q + n), ¬ OutsideHeap x) ∧ ∀ b ∈ objectsIn q n, ¬ Held base b

theorem NewBytes.of_held {base a : Arena} {b n : Nat} (hn : n ≤ 4096) (hheld : Held a b)
    (hfresh : ¬ Held base b) : NewBytes base (blockAt b) n := by
  have hlt := hheld.lt
  refine ⟨fun x hx hout => hout.not_block hlt ?_, ?_⟩
  · have := Set.mem_Ico.mp hx
    omega
  · rintro c ⟨x, hx, hlo, hhi⟩
    have hx' := Set.mem_Ico.mp hx
    have hcb : c = b := by
      by_contra hne
      have := blockAt_le hne
      omega
    exact hcb ▸ hfresh

/-- The bytes of an object are its owner's. -/
theorem Held.owned {a : Arena} (hk : KernelHeap a) {b n : Nat} (hb : Held a b) (hn : n ≤ 4096) :
    Owned a (blockAt b) n := by
  rintro i hi ⟨c, hc, hfree, hlo, hhi⟩
  rw [hk.total] at hc
  rw [hk.blockAt_eq hc] at hlo hhi
  have hne : b ≠ c := by
    rintro rfl
    rw [hb.word] at hfree
    exact absurd hfree (by decide)
  exact blockAt_apart hne (by omega) ⟨hlo, hhi⟩

/-- The bytes of a run of blocks are those of the one who has allocated it. -/
theorem Added.owned {a a' : Arena} {b k n : Nat} (hadd : Added a a' b k) (hn : n ≤ 4096 * k) {m : Mem} :
    Owned ⟨a'.heap, m⟩ (blockAt b) n := by
  rintro i hi ⟨c, hc, hfree, hlo, hhi⟩
  have hk : KernelHeap ⟨a'.heap, m⟩ := hadd.kernel.congr rfl
  rw [hk.total] at hc
  rw [hk.blockAt_eq hc] at hlo hhi
  unfold blockAt at hlo hhi
  have hbc : b ≤ c := by omega
  obtain ⟨j, rfl⟩ := Nat.exists_eq_add_of_le hbc
  exact absurd (hfree.symm.trans (hadd.taken j (by omega))) (by decide)

/-- **`zalloc` of any size** gives NULL or new bytes. -/
theorem zalloc_ok {a a' : Arena} (hk : KernelHeap a) {n q : Nat} (hn : n ≤ 2 ^ 31)
    (h : zalloc n a = .ok q a') :
    Touches ∅ ∅ a a' ∧ (q = 0 ∨ (NewBytes a q n ∧ Owned a' q n)) := by
  unfold zalloc at h
  obtain ⟨q', a1, hmalloc, h⟩ := (bind_ok_iff _ _ _ _ _).mp h
  obtain ⟨_, a2, hstore, h⟩ := (bind_ok_iff _ _ _ _ _).mp h
  obtain rfl := (modify_ok_iff _ _ _ _).mp hstore
  obtain ⟨rfl, rfl⟩ := (pure_ok_iff _ _ _ _).mp h
  have htouches : ∀ {m : Mem}, KernelHeap a1 → Frame ∅ a ⟨a1.heap, m⟩ →
      Touches ∅ ∅ a ⟨a1.heap, m⟩ := by
    intro m hk1 hf
    have hk2 : KernelHeap ⟨a1.heap, m⟩ := hk1.congr rfl
    refine (hf.touches hk hk2).mono ?_ (Set.empty_subset _)
    rintro c ⟨x, hx, -⟩
    exact hx.elim
  rw [memset_zero]
  rcases hk.malloc (by omega) hmalloc with ⟨h0, rfl, hk1, hmem, hf⟩ | ⟨b, rfl, hpos, hfits, hadd⟩
  · have hn0 : n = 0 := by
      simp only [heapAlignAmountOfBytesRequested, kernelHeapBlockSize] at h0
      split at h0 <;> omega
    refine ⟨htouches hk1 (hf.trans (Frame.store a1 _ fun x _ => ?_)), Or.inl rfl⟩
    exact fill_of_not_mem (by omega)
  · have hin := hadd.inside
    refine ⟨htouches hadd.kernel ⟨hadd.frame.startAddress, hadd.frame.total, hadd.frame.taken,
      fun x hx _ => ?_⟩, Or.inr ⟨⟨fun x hx hout => ?_, ?_⟩, hadd.owned hfits⟩⟩
    · dsimp only
      rw [fill_of_not_mem, hadd.mem]
      exact fun hc => hx (hadd.inFree hk hc.1 (by omega))
    · have hx' := Set.mem_Ico.mp hx
      unfold OutsideHeap blockAt at hout
      omega
    · rintro c ⟨x, hx, hlo, hhi⟩ hheld
      have hx' := Set.mem_Ico.mp hx
      unfold blockAt at hlo hhi
      have hin : b ≤ c ∧ c < b + blocksOf n := by omega
      have hfree := FreeRun.free_of_mem hadd.free hin
      rw [hheld.word] at hfree
      exact absurd hfree (by decide)

section

variable {stop : Halt → Prop} {s : Sys}

/-- A request of one block or less cannot fail while a block is free. -/
theorem Sys.zalloc_any_runs (hk : KernelHeap s.arena) {n : Nat} (hn : n ≤ 2 ^ 31)
    (hs : (freeBlocks s.arena.heap).card = 0 ∨ n = 0 ∨ 4096 < n → ∀ e, stop e) :
    Runs stop (Sys.zalloc n) s fun q s' => Reads ∅ ∅ s s' ∧
      (q = 0 ∨ (NewBytes s.arena q n ∧ Owned s'.arena q n)) ∧
      (0 < n ∧ n ≤ 4096 → q ≠ 0 ∧
        (freeBlocks s'.arena.heap).card + 1 = (freeBlocks s.arena.heap).card) := by
  rcases (by omega : (0 < n ∧ n ≤ 4096) ∨ n = 0 ∨ 4096 < n) with hsmall | hbig
  · refine (Sys.zalloc_runs hk hsmall.1 hsmall.2 fun h0 => hs (Or.inl h0)).mono ?_
    rintro q s' ⟨b, rfl, hnew, hreads, hcard⟩
    exact ⟨hreads, Or.inr ⟨NewBytes.of_held hsmall.2 hnew.held hnew.fresh,
      hnew.held.owned hreads.kernel hsmall.2⟩,
      fun _ => ⟨Nat.ne_of_gt (blockAt_pos b), hcard⟩⟩
  · refine runs_iff.mpr ⟨fun q s' h => ?_, fun e _ _ => hs (Or.inr hbig) e⟩
    obtain ⟨a, ha, rfl⟩ := onArena_ok_iff.mp h
    obtain ⟨ht, hq⟩ := zalloc_ok hk hn ha
    exact ⟨Reads.of_arena ht, hq, fun h => absurd h (by omega)⟩

/-! ## 2. Streams and private data -/

/-- A new stream stands at the beginning of the primary disk. -/
theorem diskStreamNew_runs (hk : KernelHeap s.arena)
    (hs : (freeBlocks s.arena.heap).card = 0 → ∀ e, stop e) :
    Runs stop (diskStreamNew 0) s fun st s' => Reads ∅ ∅ s s' ∧
      (∃ b, st = blockAt b ∧ New s.arena s'.arena b) ∧ s'.streams st = ⟨0, primaryDisk⟩ ∧
      (freeBlocks s'.arena.heap).card + 1 = (freeBlocks s.arena.heap).card := by
  change Runs stop (Sys.malloc 8 >>= fun st => setStream st (fun _ => ⟨0, primaryDisk⟩) >>=
    fun _ => pure st) s _
  refine Runs.bind (Q := fun q s' => ∃ b, q = blockAt b ∧ New s.arena s'.arena b ∧ Reads ∅ ∅ s s' ∧
    (freeBlocks s'.arena.heap).card + 1 = (freeBlocks s.arena.heap).card) ?_ ?_
  · refine Runs.zoom (hk.alloc_runs (by omega) (by omega) hs) ?_
    rintro q a ⟨b, rfl, hnew⟩
    exact ⟨b, rfl, hnew.toNew, Reads.of_arena hnew.touches, hnew.card⟩
  · rintro q s1 ⟨b, rfl, hnew, h1, hcard⟩
    refine Runs.bind (Runs.modify (Q := fun _ s' => s' = { s1 with
      streams := Function.update s1.streams (blockAt b) ⟨0, primaryDisk⟩ }) rfl) ?_
    rintro - s' rfl
    refine Runs.pure ⟨⟨⟨h1.touches, h1.disks, fun st hst => ?_, h1.sectors⟩, h1.image⟩,
      ⟨b, rfl, hnew⟩, Function.update_self _ _ _, hcard⟩
    dsimp only
    by_cases hb : st = blockAt b
    · rw [hb, Function.update_self]
    · rw [Function.update_of_ne hb]
      exact h1.streams st hst

/-- The streams of private data are there. -/
def HasStreams (s : Sys) (q : FatPrivate) : Prop :=
  (q.fatReadStream ≠ 0 ∧ (s.streams q.fatReadStream).disk = primaryDisk) ∧
    (s.streams q.directoryStream).disk = primaryDisk ∧
    (s.streams q.clusterReadStream).disk = primaryDisk

theorem initPrivateData_runs (hk : KernelHeap s.arena) (hid : (s.disks primaryDisk).id = 0)
    (hs : (freeBlocks s.arena.heap).card < 4 → ∀ e, stop e) :
    Runs stop (fat16InitPrivateData primaryDisk) s fun q s' => Reads ∅ ∅ s s' ∧ HasStreams s' q ∧
      (∃ b, q.address = blockAt b ∧ Held s'.arena b ∧ ¬ Held s.arena b) ∧
      (freeBlocks s'.arena.heap).card + 4 = (freeBlocks s.arena.heap).card := by
  unfold fat16InitPrivateData
  refine Runs.bind (diskOf_runs (Q := fun d s' => d.id = 0 ∧ s' = s) ⟨hid, rfl⟩) ?_
  rintro d s' ⟨hd, rfl⟩
  rw [hd]
  refine Runs.bind (Sys.zalloc_runs hk (by omega) (by omega) fun h0 => hs (by omega)) ?_
  rintro q s1 ⟨b, rfl, hnew, h1, hcard1⟩
  refine Runs.bind (diskStreamNew_runs h1.kernel fun h0 => hs (by omega)) ?_
  rintro q s2 ⟨h2, ⟨b2, rfl, -⟩, hst2, hcard2⟩
  refine Runs.bind (diskStreamNew_runs h2.kernel fun h0 => hs (by omega)) ?_
  rintro q s3 ⟨h3, ⟨b3, rfl, -⟩, hst3, hcard3⟩
  refine Runs.bind (diskStreamNew_runs h3.kernel fun h0 => hs (by omega)) ?_
  rintro q s4 ⟨h4, ⟨b4, rfl, -⟩, hst4, hcard4⟩
  have h24 := (h2.trans h3).trans h4
  refine Runs.pure ⟨h1.trans h24, ⟨⟨Nat.ne_of_gt (blockAt_pos b2), ?_⟩, ?_, ?_⟩,
    ⟨b, rfl, h24.touches.held b (Set.notMem_empty b) hnew.held, hnew.fresh⟩, by omega⟩
  · exact (h3.trans h4).streams _ (congrArg DiskStream.disk hst2)
  · exact h4.streams _ (congrArg DiskStream.disk hst3)
  · exact congrArg DiskStream.disk hst4

/-- Between the first and the last step of mounting: the disk has the private data `q` at block
`ba`, and the stream of `fat16_resolve` is at block `bs`. -/
structure Mounting (s0 s : Sys) (q : FatPrivate) (ba bs : Nat) : Prop where
  mounted : Mounted s q
  touches : Touches ∅ stackRange s0.arena s.arena
  ata : s.ata = s0.ata
  address : q.address = blockAt ba
  held : ∀ b ∈ ({ba, bs} : Set Nat), Held s.arena b ∧ ¬ Held s0.arena b

/-- Reading into new objects goes on with the mounting. -/
theorem Mounting.reads {s0 s' : Sys} {q : FatPrivate} {ba bs : Nat} {T : Set Nat}
    (h : Mounting s0 s q ba bs) (hr : Reads T stackRange s s') (hT : ∀ b ∈ T, ¬ Held s0.arena b)
    (hheld : ∀ b ∈ ({ba, bs} : Set Nat), Held s.arena b → Held s'.arena b) :
    Mounting s0 s' q ba bs where
  mounted := hr.mounted h.mounted
  touches := h.touches.trans' hr.touches hT
  ata := hr.ata.trans h.ata
  address := h.address
  held b hb := ⟨hheld b hb (h.held b hb).1, (h.held b hb).2⟩

/-- Reading that touches no object goes on with the mounting as well. -/
theorem Mounting.readsNone {s0 s' : Sys} {q : FatPrivate} {ba bs : Nat}
    (h : Mounting s0 s q ba bs) (hr : Reads ∅ stackRange s s') : Mounting s0 s' q ba bs :=
  h.reads hr (fun _ hb => hb.elim) fun b _ hb => hr.touches.held b (Set.notMem_empty b) hb

/-- Storing private data that keep their streams. -/
theorem Mounting.setPrivate {s0 : Sys} {q q' : FatPrivate} {ba bs : Nat} (h : Mounting s0 s q ba bs)
    (haddr : q'.address = q.address) (hfat : q'.fatReadStream = q.fatReadStream)
    (hdir : q'.directoryStream = q.directoryStream)
    (hcluster : q'.clusterReadStream = q.clusterReadStream) :
    Runs stop (setDisk primaryDisk fun d => { d with fsPrivate := some q' }) s fun _ s' =>
      Mounting s0 s' q' ba bs ∧ s'.arena = s.arena ∧ s'.streams = s.streams := by
  refine Runs.modify ⟨⟨⟨?_, ?_, ?_, ?_, ?_, ?_⟩, h.touches, h.ata, haddr.trans h.address, h.held⟩,
    rfl, rfl⟩
  · dsimp only
    rw [Function.update_self]
    exact h.mounted.fs
  · dsimp only
    rw [Function.update_self]
  · dsimp only
    rw [Function.update_self]
    exact h.mounted.sectorSize
  · rw [hfat]
    exact h.mounted.fatStream
  · rw [hdir]
    exact h.mounted.directoryStream
  · rw [hcluster]
    exact h.mounted.clusterStream

/-! ## 3. The root directory -/

/-- The header of the volume on the disk. -/
def volumeHeader (s : Sys) : FatHeader := FatHeader.read s.ata.image 0

/-- Where the root directory is. -/
def rootPos (header : FatHeader) : Nat := 512 * fat16RootDirectorySector header

/-- A volume with a root directory of one sector, behind which there is an end marker somewhere on the
device, and a heap that is not full: mounting it cannot go wrong. -/
structure Mountable (s : Sys) : Prop where
  free : 8 ≤ (freeBlocks s.arena.heap).card
  signature : (volumeHeader s).bootSignature = 41
  entries : (volumeHeader s).rootDirEntries = 16
  sector : fat16RootDirectorySector (volumeHeader s) < 2 ^ 23
  inside : fat16RootDirectorySector (volumeHeader s) < s.ata.sectors
  ending : ∃ k, ItemEnd s.ata.image (rootPos (volumeHeader s)) k ∧
    (rootPos (volumeHeader s) + 32 * k) / 512 < s.ata.sectors

/-- An empty volume: the end marker is at the beginning. -/
structure Blank (s : Sys) : Prop where
  free : 8 ≤ (freeBlocks s.arena.heap).card
  signature : (volumeHeader s).bootSignature = 41
  entries : (volumeHeader s).rootDirEntries = 16
  sector : fat16RootDirectorySector (volumeHeader s) < 2 ^ 23
  inside : fat16RootDirectorySector (volumeHeader s) < s.ata.sectors
  empty : s.ata.image (512 * fat16RootDirectorySector (volumeHeader s)) = 0

theorem Blank.itemEnd {s : Sys} (h : Blank s) :
    ItemEnd s.ata.image (512 * fat16RootDirectorySector (volumeHeader s)) 0 :=
  ItemEnd.zero (by have := h.sector; omega) h.empty

theorem Blank.mountable {s : Sys} (h : Blank s) : Mountable s where
  free := h.free
  signature := h.signature
  entries := h.entries
  sector := h.sector
  inside := h.inside
  ending := ⟨0, h.itemEnd, by have := h.inside; unfold rootPos; omega⟩

/-- The number of sectors of the root directory. -/
def rootSectors (header : FatHeader) : Nat := diskStreamGetAffectedSectors (header.rootDirEntries * 32)

/-- A directory holds the items of the root directory: as many as there are before the end marker,
and with the bytes they have on the disk, as far as their sectors have been asked for.  The number of
sectors is passed in eight bits. -/
structure RootOf (image : Mem) (header : FatHeader) (dir : FatDirectory) : Prop where
  total : ∀ k, ItemEnd image (rootPos header) k → dir.total = k
  asked : rootSectors header % 256 ≠ 0
  front : fat16RootDirectorySector header < 2 ^ 23 → ∀ i < header.rootDirEntries,
    i < 16 * (rootSectors header % 256) →
      dir.loaded[i]? = some (slice image (rootPos header + 32 * i) 32)
  length : dir.loaded.length = header.rootDirEntries
  items : ∀ item ∈ dir.loaded, item.length = 32

/-- All sectors of a root directory of at most 4096 entries are asked for. -/
theorem RootOf.loaded {image : Mem} {header : FatHeader} {dir : FatDirectory}
    (h : RootOf image header dir) (hsector : fat16RootDirectorySector header < 2 ^ 23)
    (hentries : header.rootDirEntries ≤ 4096) {i : Nat} (hi : i < header.rootDirEntries) :
    dir.loaded[i]? = some (slice image (rootPos header + 32 * i) 32) := by
  have hasked := h.asked
  refine h.front hsector i hi ?_
  -- 4096 entries are 256 sectors, which is 0 in eight bits
  unfold rootSectors at hasked ⊢
  rw [affectedSectors_eq] at hasked ⊢
  omega

/-- The items of a directory have been counted on a disk: up to the first marker, whose position may
have gone around. -/
def RootCounted (ata : Ata) (header : FatHeader) (dir : FatDirectory) : Prop :=
  dir.total < 2 ^ 27 ∧ ScanEnd ata.image (rootPos header) dir.total ∧
    ScanOnDevice ata.sectors (rootPos header) dir.total

/-- An array that the bytes of the root directory have been read into holds its items. -/
theorem RootOf.of_read {m image : Mem} {header : FatHeader} {p : Nat} {dir : FatDirectory}
    (hloaded : dir.loaded = readItems m p header.rootDirEntries)
    (hend : ScanEnd image (rootPos header) dir.total)
    (hasked : rootSectors header % 256 ≠ 0)
    (hread : fat16RootDirectorySector header < 2 ^ 23 → ∀ i < header.rootDirEntries * 32,
      i < 512 * (rootSectors header % 256) → m (p + i) = image (rootPos header + i)) :
    RootOf image header dir where
  total k hk := hend.unique hk.scan
  asked := hasked
  front hsector i hi hin := by
    rw [hloaded, readItems, List.getElem?_map, List.getElem?_range hi]
    refine congrArg some (slice_congr fun j hj => ?_)
    have hbyte := hread hsector (32 * i + j) (by omega) (by omega)
    rwa [← Nat.add_assoc, ← Nat.add_assoc] at hbyte
  length := by simp [hloaded, readItems]
  items item hitem := by
    rw [hloaded] at hitem
    obtain ⟨i, -, rfl⟩ := List.mem_map.mp hitem
    exact length_slice _ _ _

/-- What `fat16_get_root_directory` gives: a root directory, behind which the clusters begin.  It
cannot fail on a mountable volume. -/
structure RootRead (s0 s : Sys) (q : FatPrivate) (ba bs : Nat) (r : Int × Option FatDirectory)
    (s' : Sys) : Prop where
  mounting : Mounting s0 s' q ba bs
  directory : ∀ dir, r.2 = some dir → r.1 = ok ∧ dir.endingSectorPos =
    fat16RootDirectorySector (volumeHeader s0) + (volumeHeader s0).rootDirEntries * 32 / 512 ∧
    RootOf s0.ata.image (volumeHeader s0) dir ∧ RootCounted s0.ata (volumeHeader s0) dir
  mountable : Mountable s0 → r.2 ≠ none ∧
    (freeBlocks s.arena.heap).card ≤ (freeBlocks s'.arena.heap).card + 1

theorem RootRead.failed {s0 s' : Sys} {q : FatPrivate} {ba bs : Nat} (h : Mounting s0 s' q ba bs)
    (hb : ¬ Mountable s0) (code : Int) :
    Runs stop (pure (code, none) : SysM (Int × Option FatDirectory)) s' (RootRead s0 s q ba bs) :=
  Runs.pure ⟨h, fun _ hd => absurd hd.symm (Option.some_ne_none _), fun hb' => absurd hb' hb⟩

theorem getRootDirectory_runs {s0 : Sys} {q : FatPrivate} {ba bs : Nat}
    (h : Mounting s0 s q ba bs) (hhead : q.header = volumeHeader s0)
    (hs : ¬ Mountable s0 → ∀ e, stop e)
    (hcard : Mountable s0 → 2 ≤ (freeBlocks s.arena.heap).card) :
    Runs stop (fat16GetRootDirectory primaryDisk q) s (RootRead s0 s q ba bs) := by
  have hsub := Set.empty_subset stackRange
  have hentries : q.header.rootDirEntries < 65536 := by
    rw [hhead]
    exact u16_lt _ _
  unfold fat16GetRootDirectory
  refine Runs.bind (diskOf_runs (Q := fun d s' => d.sectorSize = 512 ∧ s' = s)
    ⟨h.mounted.sectorSize, rfl⟩) ?_
  rintro d s ⟨hd, rfl⟩
  refine Runs.bind (getTotalItems_scans h.touches.kernel h.mounted fun hbad => hs fun hb =>
    hbad ?_) ?_
  · have h1 := hcard hb
    obtain ⟨k, hk, hin⟩ := hb.ending
    have hend : HasEnd s (512 * fat16RootDirectorySector q.header) := by
      unfold HasEnd
      rw [hhead, h.ata]
      exact ⟨k, hk, hin, by omega⟩
    exact hend.canScan
  rintro n s1 ⟨h1, hcard1, total, hturns, hn, hend, hdev⟩
  rw [hhead, h.ata] at hend hdev
  obtain rfl : n = total := hn.trans (Int.zero_add _)
  have hm1 : Mounting s0 s1 q ba bs := h.readsNone h1
  split
  · next hneg =>
    exact absurd hneg (Int.not_lt.mpr (Int.natCast_nonneg total))
  have hsize : Mountable s0 → q.header.rootDirEntries * 32 = 512 := fun hb => by
    rw [hhead, hb.entries]
  refine Runs.bind (Sys.zalloc_any_runs h1.kernel (by omega) fun hbad => hs fun hb => ?_) ?_
  · have h2 := hcard hb
    have h4 := hsize hb
    omega
  rintro dir s2 ⟨h2, hdir, hsmall⟩
  have hm2 : Mounting s0 s2 q ba bs := hm1.readsNone (h2.mono (Set.Subset.refl _) hsub)
  have hsmall' : Mountable s0 → dir ≠ 0 ∧
      (freeBlocks s2.arena.heap).card + 1 = (freeBlocks s1.arena.heap).card :=
    fun hb => hsmall (by have := hsize hb; omega)
  by_cases h0 : dir = 0
  · rw [if_pos h0]
    exact RootRead.failed hm2 (fun hb => (hsmall' hb).1 h0) _
  rw [if_neg h0]
  obtain ⟨hnew, hown⟩ := hdir.resolve_left h0
  refine Runs.bind (diskStreamSeek_runs h2.kernel _) ?_
  rintro code s3 ⟨rfl, h3, harena3, hpos3⟩
  have hm3 : Mounting s0 s3 q ba bs := hm2.readsNone (h3.mono (Set.Subset.refl _) hsub)
  have hpos : fat16RootDirectorySector (volumeHeader s0) < 2 ^ 23 →
      (s3.streams q.directoryStream).pos = rootPos (volumeHeader s0) := by
    intro hsector
    rw [hpos3]
    unfold fat16SectorToAbsolutePos rootPos
    rw [hhead, hd, Nat.mod_eq_of_lt (by omega), Nat.mul_comm]
  rw [if_neg (by simp)]
  refine Runs.bind (diskStreamRead_any h3.kernel hm3.mounted.directoryStream (by omega)
    fun hbad => hs fun hb => ?_) ?_
  · have h4 := hcard hb
    have h6 := (hsmall' hb).2
    have h7 := hsize hb
    have h8 := hb.sector
    have h9 := hb.inside
    rw [hpos h8, hm3.ata, harena3] at hbad
    unfold rootPos at hbad
    omega
  rintro code s4 ⟨h4, hok, hbytes⟩
  have hfresh : ∀ b ∈ objectsIn dir (q.header.rootDirEntries * 32), ¬ Held s0.arena b :=
    fun b hb hheld => hnew.2 b hb (hm1.touches.held b (Set.notMem_empty b) hheld)
  have hm4 : Mounting s0 s4 q ba bs := hm3.reads ((h4.reads.inside hnew.1).mono
    (Set.Subset.refl _) hsub) hfresh fun b _ hb => h4.held b hb
  have hok' : Mountable s0 → code = ok ∧
      (freeBlocks s3.arena.heap).card ≤ (freeBlocks s4.arena.heap).card :=
    fun hb => hok (by have := hsize hb; omega)
  split
  · next hne => exact RootRead.failed hm4 (fun hb => hne (hok' hb).1) _
  · next hcode =>
    refine Runs.get_bind (Runs.pure ⟨hm4, fun dir hdir => ?_, fun hb => ⟨by simp, ?_⟩⟩)
    · cases hdir
      obtain ⟨hasked, hread⟩ := hbytes (not_not.mp hcode)
      rw [hhead] at hasked hread
      refine ⟨rfl, by rw [hhead, hd], RootOf.of_read (congrArg (readItems _ _) (by rw [hhead])) hend
        hasked fun hsector i hi hin => ?_, hturns, hend, hdev⟩
      have halign : rootPos (volumeHeader s0) % 512 = 0 := Nat.mul_mod_right _ _
      have hbyte := hread (harena3 ▸ hhead ▸ hown) (hpos hsector ▸ halign) i hi hin
      rwa [hpos hsector, hm3.ata] at hbyte
    · have h6 := (hsmall' hb).2
      have h7 := (hok' hb).2
      rw [harena3] at h7
      omega

/-! ## 4. Mounting -/

/-- The header depends on the first 62 bytes only. -/
theorem FatHeader.read_congr {m m' : Mem} {q q' : Nat} (h : ∀ i < 62, m (q + i) = m' (q' + i)) :
    FatHeader.read m q = FatHeader.read m' q' := by
  simp only [FatHeader.read, u32, u16, Nat.add_assoc, Nat.reduceAdd]
  rw [h 13 (by omega), h 14 (by omega), h 15 (by omega), h 16 (by omega), h 17 (by omega),
    h 18 (by omega), h 22 (by omega), h 23 (by omega), h 32 (by omega), h 33 (by omega),
    h 34 (by omega), h 35 (by omega), h 38 (by omega)]

/-- What an accepted volume has been read as. -/
structure Accepted (s0 : Sys) (q : FatPrivate) : Prop where
  header : q.header = volumeHeader s0
  ending : q.rootDirectory.endingSectorPos =
    fat16RootDirectorySector (volumeHeader s0) + (volumeHeader s0).rootDirEntries * 32 / 512
  root : RootOf s0.ata.image (volumeHeader s0) q.rootDirectory
  counted : RootCounted s0.ata (volumeHeader s0) q.rootDirectory

theorem Accepted.blank {s0 : Sys} {q : FatPrivate} (h : Accepted s0 q) (hb : Blank s0) :
    q.rootDirectory.total = 0 := h.root.total 0 hb.itemEnd

/-- What `fat16_resolve` has done at its label `fin`. -/
structure Resolved (s0 s : Sys) (ba bs : Nat) (r : FatPrivate × Int) (s' : Sys) : Prop where
  mounting : Mounting s0 s' r.1 ba bs
  result : (r.2 = 0 ∧ Accepted s0 r.1) ∨ (r.2 < 0 ∧ ¬ Mountable s0)
  card : Mountable s0 → (freeBlocks s.arena.heap).card ≤ (freeBlocks s'.arena.heap).card + 1

theorem resolveMount_runs {s0 : Sys} {q : FatPrivate} {ba bs : Nat} (h : Mounting s0 s q ba bs)
    (hstream : s.streams (blockAt bs) = ⟨0, primaryDisk⟩) (hs : ¬ Mountable s0 → ∀ e, stop e)
    (hcard : Mountable s0 → 2 ≤ (freeBlocks s.arena.heap).card) :
    Runs stop (fat16ResolveMount primaryDisk (blockAt bs) q) s (Resolved s0 s ba bs) := by
  have hba := (h.held ba (by simp)).1
  have hpos : (s.streams (blockAt bs)).pos = 0 := congrArg DiskStream.pos hstream
  unfold fat16ResolveMount
  rw [if_neg (Nat.ne_of_gt (blockAt_pos bs)), h.address]
  refine Runs.bind (diskStreamRead_sector h.touches.kernel (congrArg DiskStream.disk hstream)
    (by omega) (by omega) fun hbad => hs fun hb => ?_) ?_
  · have h1 := hcard hb
    have h2 := hb.inside
    rw [hpos, h.ata] at hbad
    omega
  rintro code s1 ⟨rfl, h1⟩
  have hba1 := h1.held ba hba
  have hinside : ∀ x ∈ Set.Ico (blockAt ba) (blockAt ba + 62), ¬ OutsideHeap x := by
    intro x hx hout
    have hx' := Set.mem_Ico.mp hx
    exact hout.not_block hba.lt ⟨hx'.1, by omega⟩
  have hm1 : Mounting s0 s1 q ba bs := by
    refine h.reads ((h1.reads.inside hinside).mono (Set.Subset.refl _) (Set.empty_subset _)) ?_
      fun b _ hb => h1.held b hb
    exact (NewBytes.of_held (by omega) hba (h.held ba (by simp)).2).2
  rw [if_neg (by simp)]
  have hread : FatHeader.read s1.arena.mem (blockAt ba) = volumeHeader s0 := by
    refine FatHeader.read_congr fun i hi => ?_
    rw [h1.bytes (hba.owned h.touches.kernel (by omega)) i hi (by rw [hpos]; omega), hpos, h.ata]
  refine Runs.get_bind ?_
  dsimp only
  rw [hread]
  refine Runs.bind (hm1.setPrivate h.address.symm rfl rfl rfl) ?_
  rintro - s2 ⟨hm2, harena2, -⟩
  have hcard2 : (freeBlocks s.arena.heap).card ≤ (freeBlocks s2.arena.heap).card := by
    rw [harena2]
    exact h1.card
  split
  · next hsig =>
    exact Runs.pure ⟨hm2, Or.inr ⟨(by decide : wrongFilesystem < 0), fun hb => hsig hb.signature⟩, fun _ => by omega⟩
  · refine Runs.bind (getRootDirectory_runs hm2 rfl hs fun hb => by have := hcard hb; omega) ?_
    rintro ⟨code, dir⟩ s3 h3
    cases dir with
    | none =>
      exact Runs.pure ⟨h3.mounting, Or.inr ⟨(by decide : systemFail < 0), fun hb => (h3.mountable hb).1 rfl⟩,
        fun hb => by have := (h3.mountable hb).2; omega⟩
    | some dir =>
      obtain ⟨hcode, hending, hroot, hcounted⟩ := h3.directory dir rfl
      obtain rfl : code = ok := hcode
      refine Runs.bind (h3.mounting.setPrivate rfl rfl rfl rfl) ?_
      rintro - s4 ⟨hm4, harena4, -⟩
      refine Runs.pure ⟨hm4, Or.inl ⟨rfl, rfl, hending, hroot, hcounted⟩, fun hb => ?_⟩
      have h5 := (h3.mountable hb).2
      rw [harena4]
      omega

/-- **What `fat16_resolve` leaves on a disk that it accepts**: the private data hold the header of
the volume, and the clusters begin behind its root directory.  A mountable volume is accepted. -/
theorem fat16Resolve_runs (hk : KernelHeap s.arena) (hid : (s.disks primaryDisk).id = 0)
    (hsize : (s.disks primaryDisk).sectorSize = 512) (hs : ¬ Mountable s → ∀ e, stop e) :
    Runs stop (fat16Resolve primaryDisk) s fun code s' => code = ok ∧
      ∃ q, Mounted s' q ∧ Accepted s q ∧ Touches ∅ stackRange s.arena s'.arena ∧ s'.ata = s.ata ∧
        (Mountable s → (freeBlocks s.arena.heap).card ≤ (freeBlocks s'.arena.heap).card + 5) := by
  have hsub := Set.empty_subset stackRange
  have hcard : Mountable s → 8 ≤ (freeBlocks s.arena.heap).card := fun hb => hb.free
  unfold fat16Resolve
  refine Runs.bind (initPrivateData_runs hk hid fun h => hs fun hb => ?_) ?_
  · have := hcard hb
    omega
  rintro q s1 ⟨h1, hstreams, ⟨ba, haddr, hba, hba0⟩, hcard1⟩
  -- the disk is mounted from here on
  let d2 : Disk := { s1.disks primaryDisk with fsPrivate := some q, fs := some .fat16 }
  let s2 : Sys := ⟨s1.arena, s1.ata, Function.update s1.disks primaryDisk d2, s1.streams⟩
  have hd2 : s2.disks primaryDisk = d2 := by
    change Function.update s1.disks primaryDisk d2 primaryDisk = d2
    rw [Function.update_self]
  have hdisk : s1.disks primaryDisk = s.disks primaryDisk := congrFun h1.disks _
  have hid2 : (s2.disks primaryDisk).id = 0 := by
    rw [hd2, ← hid, ← hdisk]
  have hsize2 : (s2.disks primaryDisk).sectorSize = 512 := by
    rw [hd2, ← hsize, ← hdisk]
  have hm2 : Mounted s2 q := ⟨by rw [hd2], by rw [hd2], hsize2, hstreams.1, hstreams.2.1,
    hstreams.2.2⟩
  refine Runs.bind (Runs.modify (Q := fun _ s' => s' = s2) rfl) ?_
  rintro - s' rfl
  refine Runs.bind (diskOf_runs (Q := fun d s' => d.id = 0 ∧ s' = s2)
    ⟨hid2, rfl⟩) ?_
  rintro d s' ⟨hd, rfl⟩
  rw [hd]
  refine Runs.bind (diskStreamNew_runs (s := s2) h1.kernel fun h => hs fun hb => ?_) ?_
  · have := hcard hb
    have h' : (freeBlocks s1.arena.heap).card = 0 := h
    omega
  rintro st s3 ⟨h3, ⟨bs, rfl, hnew⟩, hst, hcard3⟩
  have hm3 : Mounting s s3 q ba bs := by
    refine ⟨h3.mounted hm2, (h1.touches.trans h3.touches).mono (Set.Subset.refl _) hsub,
      h3.ata.trans h1.ata, haddr, ?_⟩
    rintro b (rfl | rfl)
    · exact ⟨h3.touches.held b (Set.notMem_empty b) hba, hba0⟩
    · exact ⟨hnew.held, fun hh => hnew.fresh (h1.touches.held b (Set.notMem_empty b) hh)⟩
  change (freeBlocks s3.arena.heap).card + 1 = (freeBlocks s1.arena.heap).card at hcard3
  refine Runs.bind (resolveMount_runs hm3 hst hs fun hb => by have := hcard hb; omega) ?_
  rintro ⟨q4, result⟩ s4 ⟨hm4, hresult, hcard4⟩
  dsimp only at hm4 hresult hcard4 ⊢
  rw [if_pos (Nat.ne_of_gt (blockAt_pos bs))]
  obtain ⟨hbs, hbs0⟩ := hm4.held bs (by simp)
  refine Runs.bind (Sys.free_runs hm4.touches.kernel hbs) ?_
  rintro - s5 ⟨h5, hcard5⟩
  rcases hresult with ⟨rfl, haccepted⟩ | ⟨hneg, hb⟩
  · rw [if_neg (by decide)]
    unfold fat16ResetPrivateDiskStreams
    refine Runs.bind (Q := fun _ s' => Reads ∅ ∅ s5 s' ∧ s'.arena = s5.arena) ?_ ?_
    · refine Runs.bind (setPos_runs h5.kernel 0) ?_
      rintro - s6 ⟨h6, ha6, -⟩
      refine Runs.bind (setPos_runs h6.kernel 0) ?_
      rintro - s7 ⟨h7, ha7, -⟩
      refine (setPos_runs h7.kernel 0).mono ?_
      rintro - s8 ⟨h8, ha8, -⟩
      exact ⟨(h6.trans h7).trans h8, ha8.trans (ha7.trans ha6)⟩
    · rintro - s8 ⟨h8, ha8⟩
      have hall := (h5.mono (Set.Subset.refl _) hsub).trans (h8.mono (Set.empty_subset _) hsub)
      refine Runs.pure ⟨rfl, q4, hall.mounted hm4.mounted, haccepted,
        hm4.touches.trans' hall.touches fun b hb => Set.mem_singleton_iff.mp hb ▸ hbs0,
        hall.ata.trans hm4.ata, fun hb => ?_⟩
      have h6 := hcard4 hb
      rw [ha8]
      omega
  · rw [if_pos hneg]
    have hstop := hs hb
    refine Runs.weaken (runs_iff.mpr ⟨fun _ _ h => ?_, fun _ _ _ => trivial⟩) fun e _ => hstop e
    obtain ⟨_, _, -, h⟩ := (bind_ok_iff _ _ _ _ _).mp h
    obtain ⟨_, _, -, h⟩ := (bind_ok_iff _ _ _ _ _).mp h
    exact absurd h (by simp)

end

end KokoOs
