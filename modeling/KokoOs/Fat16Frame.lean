/-
# What opening and closing leave alone

A call of `fat16_open` makes objects, of which the ones it returns survive; a call of
`fat16_close` releases the ones it is given.  Neither touches an object that is older than these
(`fat16Open_reads`, `fat16Close_runs`).  The file follows the driver downwards, function by function.

* **Counting.**  `countItems_runs`: the loop counts the items of a directory up to the end marker, deleted
  ones too.  It returns if there is a marker on the device and a block to read into (`HasEnd`).
* **Items.**  Making an item for an entry makes two objects (`newFatItem_runs`).  The directory that is
  loaded for a subdirectory is given up again in the same call (`loadFatDirectory_reads`).
* **Freeing.**  An item whose union is taken for a directory frees an address that is made of a name, and
  never gets past that (`freeItem_stops`); any other is released (`freeItem_reads`).
* **Walking.**  `getDirectoryEntry_reads`: the walk down a path gives up items on its way and keeps the last
  one, or none.
* **Absent names.**  Under a name that the root directory does not have nothing is found
  (`getDirectoryEntry_absent`), so opening it for writing makes a new file and opening it for reading
  finds none.

Whether a call succeeds is said along with what it does, in one walk: the reasons to stop are a parameter
of the judgement, and on a heap with enough blocks and a directory that ends there are none.
-/
import KokoOs.Fat16
import KokoOs.StrCompare
import KokoOs.SysSpec
import Mathlib.Data.List.TakeWhile

namespace KokoOs

open Bytes Prog

/-! ## 1. Mounted volumes -/

/-- The locals that the driver passes by address. -/
def stackRange : Set Nat := Set.Ico stackBuffer (stackBuffer + 32)

/-- The locals of the driver are not in the heap. -/
theorem objectsIn_stack {n : Nat} (hn : n ≤ 32) : objectsIn stackBuffer n = ∅ := by
  refine Set.eq_empty_of_forall_notMem ?_
  rintro b ⟨x, hx, hlo, hhi⟩
  have hx' := Set.mem_Ico.mp hx
  unfold blockAt at hlo
  simp only [memoryHeapStartAddress, stackBuffer] at hlo hx'
  omega

/-- The primary disk has been mounted with the private data `p`, over a disk of 512-byte sectors. -/
structure Mounted (s : Sys) (p : FatPrivate) : Prop where
  fs : (s.disks primaryDisk).fs = some .fat16
  priv : (s.disks primaryDisk).fsPrivate = some p
  sectorSize : (s.disks primaryDisk).sectorSize = 512
  fatStream : p.fatReadStream ≠ 0 ∧ (s.streams p.fatReadStream).disk = primaryDisk
  directoryStream : (s.streams p.directoryStream).disk = primaryDisk
  clusterStream : (s.streams p.clusterReadStream).disk = primaryDisk

/-- A disk stays mounted while the disks stay and no stream leaves the primary one. -/
theorem Mounted.congr {s s' : Sys} {p : FatPrivate} (hm : Mounted s p) (hdisks : s'.disks = s.disks)
    (hstreams : ∀ st, (s.streams st).disk = primaryDisk → (s'.streams st).disk = primaryDisk) :
    Mounted s' p := by
  obtain ⟨h1, h2, h3, h4, h5, h6⟩ := hm
  have hdisk : s'.disks primaryDisk = s.disks primaryDisk := congrFun hdisks primaryDisk
  exact ⟨hdisk ▸ h1, hdisk ▸ h2, hdisk ▸ h3, ⟨h4.1, hstreams _ h4.2⟩, hstreams _ h5,
    hstreams _ h6⟩

theorem Quiet.mounted {T W : Set Nat} {s s' : Sys} {p : FatPrivate} (h : Quiet T W s s')
    (hm : Mounted s p) : Mounted s' p :=
  hm.congr h.disks h.streams

section

variable {stop : Halt → Prop} {s : Sys} {p : FatPrivate}

/-- The private data of a mounted disk are at hand. -/
theorem Mounted.fsPrivate_runs (hm : Mounted s p) {Q : FatPrivate → Sys → Prop} (hQ : Q p s) :
    Runs stop (fsPrivate primaryDisk) s Q := by
  unfold fsPrivate
  refine Runs.get_bind ?_
  rw [hm.priv]
  exact Runs.pure hQ

/-- Looking them up is a call that returns them and changes nothing. -/
theorem Mounted.fsPrivate_run (hm : Mounted s p) : fsPrivate primaryDisk s = .ok p s := by
  change orFault (s.disks primaryDisk).fsPrivate s = _
  rw [hm.priv]
  rfl

/-- Positions on a mounted disk are counted in sectors of 512 bytes. -/
theorem Mounted.sectorPos (hm : Mounted s p) (sector : Nat) :
    fat16SectorToAbsolutePos (s.disks primaryDisk) sector = sector * 512 % 2 ^ 32 := by
  unfold fat16SectorToAbsolutePos
  rw [hm.sectorSize]

/-- The size of its clusters is counted in the same sectors. -/
theorem Mounted.clusterSize (hm : Mounted s p) (q : FatPrivate) :
    fat16ClusterSize (s.disks primaryDisk) q = q.header.sectorsPerCluster * 512 % 2 ^ 32 :=
  hm.sectorPos _

theorem diskOf_run (s : Sys) : diskOf primaryDisk s = .ok (s.disks primaryDisk) s := rfl

theorem diskOf_runs {Q : Disk → Sys → Prop} (hQ : Q (s.disks primaryDisk) s) :
    Runs stop (diskOf primaryDisk) s Q := Runs.get_bind (Runs.pure hQ)

/-! ## 2. Counting the items of a directory -/

/-- The local that items are read into. -/
theorem owned_stack {a : Arena} (hk : KernelHeap a) {n : Nat} (hn : n ≤ 32) :
    Owned a stackBuffer n := by
  rintro i hi ⟨b, hb, -, hlo, -⟩
  rw [hk.total] at hb
  rw [hk.blockAt_eq hb] at hlo
  unfold blockAt at hlo
  simp only [memoryHeapStartAddress, stackBuffer] at hlo
  omega

theorem readStack_runs (hk : KernelHeap s.arena) {stream n : Nat}
    (hd : (s.streams stream).disk = primaryDisk) (h0 : 0 < n) (hn : n ≤ 32)
    (hs : (freeBlocks s.arena.heap).card = 0 ∨ s.ata.sectors < (s.streams stream).pos / 512 + 1 →
      ∀ e, stop e) :
    Runs stop (diskStreamRead stream stackBuffer n) s fun code s' => code = ok ∧
      Reads ∅ stackRange s s' ∧ (s'.streams stream).pos = ((s.streams stream).pos + n) % 2 ^ 32 ∧
      (∀ i < n, (s.streams stream).pos % 512 + i < 512 →
        s'.arena.mem (stackBuffer + i) = s.ata.image ((s.streams stream).pos + i)) ∧
      (freeBlocks s.arena.heap).card ≤ (freeBlocks s'.arena.heap).card ∧
      (freeBlocks s.arena.heap).card ≠ 0 ∧ (s.streams stream).pos / 512 < s.ata.sectors := by
  refine (diskStreamRead_sector hk hd h0 (by omega) hs).mono ?_
  rintro code s' ⟨rfl, hr⟩
  have hreads := hr.reads
  rw [objectsIn_stack hn] at hreads
  exact ⟨rfl, hreads.mono (Set.Subset.refl _) (Set.Ico_subset_Ico_right (by omega)), hr.pos,
    hr.bytes (owned_stack hk hn), hr.card, hr.needs⟩

/-- From `pos` on there are `k` items, and an end marker behind them. -/
structure ItemEnd (image : Mem) (pos k : Nat) : Prop where
  fits : pos + 32 * k < 2 ^ 32
  marker : image (pos + 32 * k) = 0
  items : ∀ j < k, image (pos + 32 * j) ≠ 0

theorem signedChar_eq_zero {c : UInt8} : signedChar c = 0 ↔ c = 0 :=
  ⟨fun h => signedChar_inj h, fun h => by rw [h]; rfl⟩

/-- An end marker at the beginning. -/
theorem ItemEnd.zero {image : Mem} {pos : Nat} (hpos : pos < 2 ^ 32) (h : image pos = 0) :
    ItemEnd image pos 0 := ⟨by omega, h, fun j hj => absurd hj (Nat.not_lt_zero j)⟩

/-- From `pos` on there are `k` items, and an end marker behind them, at positions of 32 bits, which go
around. -/
structure ScanEnd (image : Mem) (pos k : Nat) : Prop where
  marker : image ((pos + 32 * k) % 2 ^ 32) = 0
  items : ∀ j < k, image ((pos + 32 * j) % 2 ^ 32) ≠ 0

theorem ItemEnd.scan {image : Mem} {pos k : Nat} (h : ItemEnd image pos k) : ScanEnd image pos k := by
  have hfits := h.fits
  refine ⟨?_, fun j hj => ?_⟩
  · rw [Nat.mod_eq_of_lt hfits]
    exact h.marker
  · rw [Nat.mod_eq_of_lt (by omega)]
    exact h.items j hj

/-- The first marker is the end. -/
theorem ScanEnd.unique {image : Mem} {pos k k' : Nat} (h : ScanEnd image pos k)
    (h' : ScanEnd image pos k') : k = k' := by
  rcases Nat.lt_trichotomy k k' with hlt | heq | hlt
  · exact absurd h.marker (h'.items k hlt)
  · exact heq
  · exact absurd h'.marker (h.items k' hlt)

/-- The sectors of the items, and of the marker, are on the device. -/
def ScanOnDevice (sectors pos k : Nat) : Prop := ∀ j ≤ k, (pos + 32 * j) % 2 ^ 32 / 512 < sectors

/-- The items at `pos` can be counted in `turns` turns. -/
def CanScan (s : Sys) (pos turns : Nat) : Prop :=
  ∃ k < turns, ScanEnd s.ata.image pos k ∧ ScanOnDevice s.ata.sectors pos k ∧
    (freeBlocks s.arena.heap).card ≠ 0

theorem scan_next (pos j : Nat) :
    ((pos + 32) % 2 ^ 32 + 32 * j) % 2 ^ 32 = (pos + 32 * (j + 1)) % 2 ^ 32 := by omega

/-- One item more: it is not the marker, and the others end where they end. -/
theorem ScanEnd.succ_iff {image : Mem} {pos k : Nat} (hpos : pos < 2 ^ 32) :
    ScanEnd image pos (k + 1) ↔ image pos ≠ 0 ∧ ScanEnd image ((pos + 32) % 2 ^ 32) k := by
  have hfirst : (pos + 32 * 0) % 2 ^ 32 = pos := Nat.mod_eq_of_lt hpos
  constructor
  · intro h
    refine ⟨fun h0 => h.items 0 (Nat.succ_pos k) (hfirst.symm ▸ h0), ?_, fun j hj => ?_⟩
    · rw [scan_next]
      exact h.marker
    · rw [scan_next]
      exact h.items (j + 1) (Nat.succ_lt_succ hj)
  · rintro ⟨h0, h⟩
    refine ⟨scan_next pos k ▸ h.marker, fun j hj => ?_⟩
    cases j with
    | zero => rwa [hfirst]
    | succ j => exact scan_next pos j ▸ h.items j (Nat.lt_of_succ_lt_succ hj)

theorem ScanOnDevice.succ_iff {sectors pos k : Nat} (hpos : pos < 2 ^ 32) :
    ScanOnDevice sectors pos (k + 1) ↔
      pos / 512 < sectors ∧ ScanOnDevice sectors ((pos + 32) % 2 ^ 32) k := by
  have hfirst : (pos + 32 * 0) % 2 ^ 32 = pos := Nat.mod_eq_of_lt hpos
  constructor
  · intro h
    refine ⟨hfirst ▸ h 0 (Nat.zero_le _), fun j hj => ?_⟩
    rw [scan_next]
    exact h (j + 1) (Nat.succ_le_succ hj)
  · rintro ⟨h0, h⟩ j hj
    cases j with
    | zero => rwa [hfirst]
    | succ j => exact scan_next pos j ▸ h j (Nat.le_of_succ_le_succ hj)

/-- The items at `pos` can be counted: there is an end marker behind them, which is on the device, and
the heap has a block to read into. -/
def HasEnd (s : Sys) (pos : Nat) : Prop :=
  ∃ k, ItemEnd s.ata.image pos k ∧ (pos + 32 * k) / 512 < s.ata.sectors ∧
    (freeBlocks s.arena.heap).card ≠ 0

theorem HasEnd.canScan {s : Sys} {pos : Nat} (h : HasEnd s pos) : CanScan s pos (2 ^ 27) := by
  obtain ⟨k, hend, hdev, hfree⟩ := h
  have hfits := hend.fits
  refine ⟨k, by omega, hend.scan, fun j hj => ?_, hfree⟩
  rw [Nat.mod_eq_of_lt (by omega)]
  omega

/-- What a scan from `pos` on gives: it has counted the items up to the first marker. -/
structure Scanned (s : Sys) (pos turns : Nat) (count n : Int) (s' : Sys) : Prop where
  reads : Reads ∅ stackRange s s'
  card : (freeBlocks s.arena.heap).card ≤ (freeBlocks s'.arena.heap).card
  ends : ∃ k < turns, n = count + k ∧ ScanEnd s.ata.image pos k ∧ ScanOnDevice s.ata.sectors pos k

/-- **The loop counts the items up to the end marker**, deleted ones too.  It cannot fail if there is
one. -/
theorem countItems_runs {stream : Nat} : ∀ {fuel : Nat} {count : Int} {s : Sys},
    KernelHeap s.arena → (s.streams stream).disk = primaryDisk → (s.streams stream).pos < 2 ^ 32 →
    (¬ CanScan s (s.streams stream).pos fuel → ∀ e, stop e) →
    Runs stop (fat16CountItems stream fuel count) s
      (Scanned s (s.streams stream).pos fuel count)
  | 0, _, _, _, _, _, hs => by
    refine Runs.throw (hs ?_ _)
    rintro ⟨k, hk, -⟩
    exact absurd hk (Nat.not_lt_zero k)
  | fuel + 1, count, s, hk, hd, hpos32, hs => by
    have hfirst : ((s.streams stream).pos + 32 * 0) % 2 ^ 32 = (s.streams stream).pos :=
      Nat.mod_eq_of_lt hpos32
    unfold fat16CountItems
    refine Runs.bind (readStack_runs hk hd (by omega) (by omega) fun hbad => hs ?_) ?_
    · rintro ⟨k, -, -, hdev, hfree⟩
      have hdev0 := hdev 0 (Nat.zero_le k)
      rw [hfirst] at hdev0
      omega
    rintro code s1 ⟨rfl, h1, hpos, hbytes, hcard, -, hdev⟩
    rw [if_neg (by simp)]
    refine Runs.get_bind ?_
    have hbyte : s1.arena.mem stackBuffer = s.ata.image (s.streams stream).pos :=
      hbytes 0 (by omega) (by omega)
    dsimp only
    rw [hbyte]
    by_cases hzero : s.ata.image (s.streams stream).pos = 0
    · rw [if_pos (signedChar_eq_zero.mpr hzero)]
      refine Runs.pure ⟨h1, hcard, 0, Nat.succ_pos fuel, (Int.add_zero count).symm, ⟨?_, ?_⟩, ?_⟩
      · rwa [hfirst]
      · exact fun j hj => absurd hj (Nat.not_lt_zero j)
      · rintro j hj
        obtain rfl := Nat.le_zero.mp hj
        rwa [hfirst]
    · have hlt : signedChar (s.ata.image (s.streams stream).pos) ≠ 0xe5 := by
        unfold signedChar
        have := (s.ata.image (s.streams stream).pos).toNat_lt
        split <;> omega
      rw [if_neg fun h => hzero (signedChar_eq_zero.mp h), if_neg hlt]
      refine (countItems_runs h1.kernel (h1.streams stream hd) ?_ fun hbad => hs ?_).mono ?_
      · rw [hpos]
        exact Nat.mod_lt _ (by omega)
      · rintro ⟨k, hk, hend, hdevk, hfree⟩
        cases k with
        | zero => exact hzero (hfirst ▸ hend.marker)
        | succ k =>
          refine hbad ⟨k, Nat.lt_of_succ_lt_succ hk, ?_, ?_, by omega⟩
          · rw [hpos, h1.image]
            exact ((ScanEnd.succ_iff hpos32).mp hend).2
          · rw [hpos, h1.sectors]
            exact ((ScanOnDevice.succ_iff hpos32).mp hdevk).2
      · rintro n s2 ⟨h2, hcard2, k, hk, rfl, hend, hdevk⟩
        rw [hpos, h1.image] at hend
        rw [hpos, h1.sectors] at hdevk
        refine ⟨h1.trans h2, by omega, k + 1, Nat.succ_lt_succ hk, by push_cast; omega, ?_, ?_⟩
        · exact (ScanEnd.succ_iff hpos32).mpr ⟨hzero, hend⟩
        · exact (ScanOnDevice.succ_iff hpos32).mpr ⟨hdev, hdevk⟩

/-- **Counting the items of a directory**, wherever it is. -/
theorem getTotalItems_scans (hk : KernelHeap s.arena) (hm : Mounted s p) {sector : Nat}
    (hs : ¬ CanScan s (512 * sector) (2 ^ 27) → ∀ e, stop e) :
    Runs stop (fat16GetTotalItemsForDirectory primaryDisk sector) s
      (Scanned s (512 * sector) (2 ^ 27) 0) := by
  have hmod : ∀ j, (sector * 512 % 2 ^ 32 + 32 * j) % 2 ^ 32 = (512 * sector + 32 * j) % 2 ^ 32 :=
    fun j => by omega
  unfold fat16GetTotalItemsForDirectory
  refine Runs.bind (diskOf_runs (Q := fun d s' => d = s.disks primaryDisk ∧ s' = s) ⟨rfl, rfl⟩) ?_
  rintro d s' ⟨rfl, rfl⟩
  refine Runs.bind (hm.fsPrivate_runs (Q := fun q s1 => q = p ∧ s1 = s') ⟨rfl, rfl⟩) ?_
  rintro q s1 ⟨rfl, rfl⟩
  refine Runs.bind (diskStreamSeek_runs hk _) ?_
  rintro code s2 ⟨rfl, h2, harena, hpos⟩
  rw [hm.sectorPos] at hpos
  rw [if_neg (by simp)]
  refine (countItems_runs h2.kernel (h2.streams _ hm.directoryStream) ?_ fun hbad => hs ?_).mono ?_
  · rw [hpos]
    exact Nat.mod_lt _ (by omega)
  · rintro ⟨k, hk, hend, hdev, hfree⟩
    refine hbad ⟨k, hk, ?_, fun j hj => ?_, by rwa [harena]⟩
    · rw [hpos, h2.ata]
      exact ⟨(hmod k).symm ▸ hend.marker, fun j hj => (hmod j).symm ▸ hend.items j hj⟩
    · rw [hpos, hmod, h2.ata]
      exact hdev j hj
  · rintro n s3 ⟨h3, hcard, k, hk, rfl, hend, hdev⟩
    rw [hpos, h2.ata] at hend hdev
    refine ⟨(h2.mono (Set.Subset.refl _) (Set.empty_subset _)).trans h3, by rwa [← harena], k, hk, rfl,
      ⟨hmod k ▸ hend.marker, fun j hj => hmod j ▸ hend.items j hj⟩, fun j hj => hmod j ▸ hdev j hj⟩

/-! ## 3. Making items -/

/-- A request for nothing is answered by NULL. -/
theorem zalloc_zero_runs {a : Arena} (hk : KernelHeap a) :
    Runs stop (zalloc 0) a fun q a' => q = 0 ∧ Touches ∅ ∅ a a' ∧
      (freeBlocks a.heap).card ≤ (freeBlocks a'.heap).card + 1 := by
  have hT := hk.total
  obtain ⟨a1, hmalloc, hcard⟩ := heapMalloc_zero (a := a) (by omega)
  unfold zalloc
  refine Runs.bind (Q := fun q a' => q = 0 ∧ a' = a1) (Runs.of_ok hmalloc ⟨rfl, rfl⟩) ?_
  rintro q a' ⟨rfl, rfl⟩
  rcases hk.malloc (by omega) hmalloc with ⟨-, -, hk1, hmem, hf⟩ | ⟨b, -, hpos, -, -⟩
  · refine Runs.bind (Runs.modify (Q := fun _ a2 => a2 = a') ?_) ?_
    · rw [memset_zero]
      congr 1
    · rintro - a2 rfl
      refine Runs.pure ⟨rfl, (hf.touches hk hk1).mono ?_ (Set.empty_subset _), hcard⟩
      rintro c ⟨x, hx, -⟩
      exact hx.elim
  · have hz : blocksOf 0 = 0 := rfl
    exact absurd hpos (by omega)

theorem Sys.zalloc_zero_runs (hk : KernelHeap s.arena) :
    Runs stop (Sys.zalloc 0) s fun q s' => q = 0 ∧ Reads ∅ ∅ s s' ∧
      (freeBlocks s.arena.heap).card ≤ (freeBlocks s'.arena.heap).card + 1 := by
  unfold Sys.zalloc onArena
  refine Runs.zoom (KokoOs.zalloc_zero_runs hk) ?_
  rintro q a ⟨rfl, ht, hcard⟩
  exact ⟨rfl, Reads.of_arena ht, hcard⟩

/-- The items of the directory of an entry end, on the device. -/
def DirectoryEnds (ata : Ata) (p : FatPrivate) (dirItem : FatDirectoryItem) : Prop :=
  let pos := 512 * fat16ClusterToSector p (fat16GetFirstCluster dirItem)
  ∃ k < 2 ^ 27, ScanEnd ata.image pos k ∧ ScanOnDevice ata.sectors pos k

/-- The heap has the blocks for the item of an entry, and if that is a directory it ends. -/
def CanMake (s : Sys) (p : FatPrivate) (dirItem : FatDirectoryItem) : Prop :=
  3 ≤ (freeBlocks s.arena.heap).card ∧ (dirItem.isSubdirectory = true → DirectoryEnds s.ata p dirItem)

/-- **The directory that is loaded for an item is given up again**: its size is computed when its total
is still 0. -/
theorem loadFatDirectory_reads (hk : KernelHeap s.arena) (hm : Mounted s p)
    {dirItem : FatDirectoryItem}
    (hs : ¬ (2 ≤ (freeBlocks s.arena.heap).card ∧ DirectoryEnds s.ata p dirItem) → ∀ e, stop e) :
    Runs stop (fat16LoadFatDirectory primaryDisk dirItem) s fun r s' =>
      r = 0 ∧ Reads ∅ stackRange s s' ∧
        (freeBlocks s.arena.heap).card ≤ (freeBlocks s'.arena.heap).card + 1 := by
  unfold fat16LoadFatDirectory
  split
  · exact Runs.pure ⟨rfl, Reads.refl hk _ _, Nat.le_succ _⟩
  · refine Runs.bind (Sys.zalloc_runs hk (by omega) (by omega) fun h0 => hs (by omega)) ?_
    rintro q s1 ⟨b, rfl, hnew, h1, hcard1⟩
    rw [if_neg (Nat.ne_of_gt (blockAt_pos b))]
    have hm1 := h1.mounted hm
    refine Runs.bind (hm1.fsPrivate_runs (Q := fun q s' => q = p ∧ s' = s1) ⟨rfl, rfl⟩) ?_
    rintro q s' ⟨rfl, rfl⟩
    refine Runs.bind (getTotalItems_scans h1.kernel hm1 fun hbad => hs ?_) ?_
    · rintro ⟨hroom, k, hk', hend, hdev⟩
      rw [← h1.ata] at hend hdev
      exact hbad ⟨k, hk', hend, hdev, by omega⟩
    rintro - s2 ⟨h2, hcard2, -⟩
    refine Runs.bind (Sys.zalloc_zero_runs h2.kernel) ?_
    rintro q s3 ⟨rfl, h3, hcard3⟩
    rw [if_pos rfl]
    have hb2 := h2.touches.held b (Set.notMem_empty b) hnew.held
    have hb3 := h3.touches.held b (Set.notMem_empty b) hb2
    refine Runs.bind (Sys.free_runs h3.kernel hb3) ?_
    rintro - s4 ⟨h4, hcard4⟩
    have hsub := Set.empty_subset stackRange
    have hempty := Set.Subset.refl (∅ : Set Nat)
    refine Runs.pure ⟨rfl, (((h1.mono hempty hsub).trans h2).trans (h3.mono hempty hsub)).trans'
      (h4.mono (Set.Subset.refl _) hsub) ?_, by omega⟩
    exact fun c hc => Set.mem_singleton_iff.mp hc ▸ hnew.fresh

/-- An item whose two blocks are objects that did not exist in `base`. -/
def NewItem (base a : Arena) (item : FatItem) : Prop :=
  ∃ b c, item.address = blockAt b ∧ item.itemAddress = blockAt c ∧ b ≠ c ∧
    (Held a b ∧ ¬ Held base b) ∧ (Held a c ∧ ¬ Held base c)

theorem cloneDirectoryItem_runs (hk : KernelHeap s.arena) (dirItem : FatDirectoryItem)
    (hs : (freeBlocks s.arena.heap).card = 0 → ∀ e, stop e) :
    Runs stop (fat16CloneDirectoryItem dirItem 32) s fun q s' => ∃ b, q = blockAt b ∧
      New s.arena s'.arena b ∧ Reads ∅ ∅ s s' ∧
      (freeBlocks s'.arena.heap).card + 1 = (freeBlocks s.arena.heap).card := by
  unfold fat16CloneDirectoryItem
  rw [if_neg (by omega)]
  refine Runs.bind (Sys.zalloc_runs hk (by omega) (by omega) hs) ?_
  rintro q s1 ⟨b, rfl, hnew, h1, hcard⟩
  rw [if_neg (Nat.ne_of_gt (blockAt_pos b))]
  refine Runs.bind (storeMem_runs h1.kernel hnew.held fun x hx => blit_of_not_mem ?_) ?_
  · have := List.length_take_le 32 dirItem
    omega
  · rintro - s2 ⟨h2, hheap, -⟩
    have hfresh : ∀ c ∈ ({b} : Set Nat), ¬ Held s.arena c :=
      fun c hc => Set.mem_singleton_iff.mp hc ▸ hnew.fresh
    exact Runs.pure ⟨b, rfl, hnew.trans h2.touches hfresh ⟨hnew.held.lt, hheap ▸ hnew.held.word⟩,
      h1.trans' h2 hfresh, hheap ▸ hcard⟩

/-- An item that is made for an entry: it has a clone of it, and its type is that of the entry. -/
structure ItemOf (dirItem : FatDirectoryItem) (x : FatItem) : Prop where
  item : x.item = dirItem
  type : x.type = if dirItem.isSubdirectory then .directory else .file

/-- **Making an item for an entry** makes two objects.  It cannot fail if the heap has the blocks, and
the directory of the entry ends. -/
theorem newFatItem_runs (hk : KernelHeap s.arena) (hm : Mounted s p) {dirItem : FatDirectoryItem}
    (hs : ¬ CanMake s p dirItem → ∀ e, stop e) :
    Runs stop (fat16NewFatItemForDirectoryItem primaryDisk dirItem) s fun r s' =>
      Reads ∅ stackRange s s' ∧ (∃ item, r = some item ∧ ItemOf dirItem item ∧
        NewItem s.arena s'.arena item) ∧
      (freeBlocks s.arena.heap).card ≤ (freeBlocks s'.arena.heap).card + 3 := by
  have hsub := Set.empty_subset stackRange
  have hempty := Set.Subset.refl (∅ : Set Nat)
  unfold fat16NewFatItemForDirectoryItem
  refine Runs.bind (Sys.zalloc_runs hk (by omega) (by omega) fun h0 => hs fun h => ?_) ?_
  · exact absurd h.1 (by omega)
  rintro q s1 ⟨b, rfl, hnew, h1, hcard1⟩
  rw [if_neg (Nat.ne_of_gt (blockAt_pos b))]
  have h1' := h1.mono hempty hsub
  have hclone : ∀ (s2 : Sys) (type : FatItemType),
      type = (if dirItem.isSubdirectory then .directory else .file) → Reads ∅ stackRange s1 s2 →
      (freeBlocks s1.arena.heap).card ≤ (freeBlocks s2.arena.heap).card + 1 →
      Runs stop (do
        let itemAddress ← fat16CloneDirectoryItem dirItem 32
        return some ({ address := blockAt b, itemAddress, item := dirItem, type } : FatItem)) s2
        fun r s' => Reads ∅ stackRange s s' ∧ (∃ item, r = some item ∧ ItemOf dirItem item ∧
          NewItem s.arena s'.arena item) ∧
        (freeBlocks s.arena.heap).card ≤ (freeBlocks s'.arena.heap).card + 3 := by
    intro s2 type htype h2 hcard2
    refine Runs.bind (cloneDirectoryItem_runs h2.kernel dirItem fun h0 => hs fun h => ?_) ?_
    · exact absurd h.1 (by omega)
    rintro q s3 ⟨c, rfl, hnew3, h3, hcard3⟩
    have hb2 := h2.touches.held b (Set.notMem_empty b) hnew.held
    have hreads := (h1'.trans h2).trans (h3.mono hempty hsub)
    refine Runs.pure ⟨hreads, ⟨_, rfl, ⟨rfl, htype⟩, b, c, rfl, rfl, hnew3.ne hb2,
      ⟨h3.touches.held b (Set.notMem_empty b) hb2, hnew.fresh⟩, hnew3.held,
      fun hc => hnew3.fresh ?_⟩, by omega⟩
    exact (h1'.trans h2).touches.held c (Set.notMem_empty c) hc
  split
  · next hdir =>
    refine Runs.bind (loadFatDirectory_reads h1.kernel (h1.mounted hm) fun hbad => hs fun h => ?_) ?_
    · rw [h1.ata] at hbad
      exact hbad ⟨by have := h.1; omega, h.2 hdir⟩
    rintro - s2 ⟨-, h2, hcard2⟩
    exact hclone s2 .directory (if_pos hdir).symm h2 hcard2
  · next hfile => exact hclone s1 .file (if_neg hfile).symm (Reads.refl h1.kernel _ _) (Nat.le_succ _)

theorem runs_any {σ α : Type} (m : EStateM Halt σ α) (s : σ) :
    Runs (fun _ => True) m s fun _ _ => True := Runs.of_returns fun _ _ _ => trivial

/-- Making an item for an entry gives one of that entry, if it returns. -/
theorem newFatItem_item (dirItem : FatDirectoryItem) :
    Runs (fun _ => True) (fat16NewFatItemForDirectoryItem primaryDisk dirItem) s fun r _ =>
      ∀ item, r = some item → ItemOf dirItem item := by
  unfold fat16NewFatItemForDirectoryItem
  refine Runs.bind (runs_any _ _) ?_
  rintro address s1 -
  split
  · exact Runs.pure fun _ h => by cases h
  · split
    · next hdir =>
      refine Runs.bind (runs_any _ _) fun _ s2 _ => Runs.bind (runs_any _ _) fun _ s3 _ => ?_
      refine Runs.pure fun _ h => ?_
      cases h
      exact ⟨rfl, (if_pos hdir).symm⟩
    · next hfile =>
      refine Runs.bind (runs_any _ _) fun _ s2 _ => Runs.pure fun _ h => ?_
      cases h
      exact ⟨rfl, (if_neg hfile).symm⟩

/-! ## 4. Finding items -/

theorem orFault_runs {α : Type} {o : Option α} (hs : o = none → ∀ e, stop e) :
    Runs stop (orFault o) s fun x s' => o = some x ∧ s' = s := by
  cases o with
  | none => exact Runs.throw (hs rfl _)
  | some x => exact Runs.pure ⟨rfl, rfl⟩

theorem orHangs_runs {α : Type} {o : Option α} (hs : o = none → ∀ e, stop e) :
    Runs stop (orHangs o) s fun x s' => o = some x ∧ s' = s := by
  cases o with
  | none => exact Runs.throw (hs rfl _)
  | some x => exact Runs.pure ⟨rfl, rfl⟩

/-- What a search gives: nothing, or an item made since `s0`. -/
def Searched (s0 : Sys) (r : Option FatItem) (s : Sys) : Prop :=
  Reads ∅ stackRange s0 s ∧ ∀ item, r = some item → NewItem s0.arena s.arena item

/-- What has been made later has not existed before. -/
theorem NewItem.since {base a a' : Arena} {item : FatItem} (h : NewItem a a' item)
    {W : Set Nat} (ht : Touches ∅ W base a) : NewItem base a' item := by
  obtain ⟨b, c, h1, h2, hbc, ⟨hb, hb'⟩, hc, hc'⟩ := h
  exact ⟨b, c, h1, h2, hbc, ⟨hb, fun hh => hb' (ht.held b (Set.notMem_empty b) hh)⟩, hc,
    fun hh => hc' (ht.held c (Set.notMem_empty c) hh)⟩

theorem findLoop_reads {s0 : Sys} {directory : FatDirectory} {name : Nat} :
    ∀ {fuel i : Nat} {item : Option FatItem} {s : Sys}, Mounted s p → Searched s0 item s →
    Runs (fun _ => True) (fat16FindLoop primaryDisk directory name fuel i item) s (Searched s0)
  | 0, _, _, _, _, h => Runs.pure h
  | fuel + 1, i, item, s, hm, h => by
    unfold fat16FindLoop
    refine Runs.bind (orFault_runs fun _ _ => trivial) ?_
    rintro dirItem s' ⟨-, rfl⟩
    refine Runs.bind (orFault_runs fun _ _ => trivial) ?_
    rintro tmp s1 ⟨-, rfl⟩
    refine Runs.get_bind (Runs.bind (orHangs_runs fun _ _ => trivial) ?_)
    rintro cmp s' ⟨-, rfl⟩
    split
    · refine Runs.bind (newFatItem_runs h.1.kernel hm fun _ _ => trivial) ?_
      rintro r s2 ⟨h2, ⟨item2, rfl, -, hnew⟩, -⟩
      refine findLoop_reads (h2.mounted hm) ⟨h.1.trans h2, fun x hx => ?_⟩
      cases hx
      exact hnew.since h.1.touches
    · exact findLoop_reads hm h

theorem findItemInDirectory_reads (hk : KernelHeap s.arena) (hm : Mounted s p)
    (directory : FatDirectory) (name : Nat) :
    Runs (fun _ => True) (fat16FindItemInDirectory primaryDisk directory name) s (Searched s) :=
  findLoop_reads hm ⟨Reads.refl hk _ _, fun _ h => by cases h⟩

/-- Freeing this item would free an address that is made of a name: its union is taken for a directory,
and the name does not begin with four NULs. -/
def FatItem.FreesName (item : FatItem) : Prop :=
  item.type = .directory ∧ u32 (literal item.item) 0 ≠ 0

/-- Such an item is never freed. -/
theorem freeItem_stops {item : FatItem} (h : item.FreesName) {s' : Sys} {r : Unit} :
    fat16FreeItem item s ≠ .ok r s' := by
  intro hrun
  unfold fat16FreeItem at hrun
  rw [h.1] at hrun
  obtain ⟨_, _, hrun, -⟩ := (bind_ok_iff _ _ _ _ _).mp hrun
  unfold fat16FreeDirectory at hrun
  rw [if_pos h.2] at hrun
  obtain ⟨_, _, hrun, -⟩ := (bind_ok_iff _ _ _ _ _).mp hrun
  obtain ⟨_, _, -, hrun⟩ := (bind_ok_iff _ _ _ _ _).mp hrun
  exact (throw_ok_iff _ _ _ _).mp hrun

/-- **Freeing an item** releases its two objects, but for those that are never freed. -/
theorem freeItem_reads (hk : KernelHeap s.arena) {item : FatItem} {b c : Nat}
    (hb : item.address = blockAt b) (hc : item.itemAddress = blockAt c) (hbc : b ≠ c)
    (hheldb : Held s.arena b) (hheldc : Held s.arena c)
    (hs : item.FreesName → ∀ e, stop e) :
    Runs stop (fat16FreeItem item) s fun _ s' => Reads {b, c} ∅ s s' := by
  have hfree : Runs stop (do
      Sys.free item.itemAddress
      Sys.free item.address) s fun _ s' => Reads {b, c} ∅ s s' := by
    rw [hb, hc]
    refine Runs.bind (Sys.free_runs hk hheldc) ?_
    rintro - s1 ⟨h1, -⟩
    refine (Sys.free_runs h1.kernel (h1.touches.held b (fun h => hbc h) hheldb)).mono ?_
    rintro - s2 ⟨h2, -⟩
    exact (h1.mono (by simp) (Set.Subset.refl _)).trans (h2.mono (by simp) (Set.Subset.refl _))
  unfold fat16FreeItem
  cases htype : item.type with
  | file => exact hfree
  | directory =>
    refine Runs.bind (Q := fun _ s1 => ∃ s0, s0 = s1 ∧ Runs stop (Sys.free item.address) s0
      fun _ s' => Reads {b, c} ∅ s s') ?_ fun _ s1 ⟨s0, h0, h⟩ => h0 ▸ h
    unfold fat16FreeDirectory
    split
    · next hname =>
      refine Runs.bind (Q := fun _ _ => False) ?_ fun _ _ h => h.elim
      unfold freeWild
      refine runs_iff.mpr ⟨fun _ s' h => ?_, fun e _ _ => hs ⟨htype, hname⟩ e⟩
      obtain ⟨_, _, -, h⟩ := (bind_ok_iff _ _ _ _ _).mp h
      exact (throw_ok_iff _ _ _ _).mp h
    · rw [hb, hc]
      refine (Sys.free_runs hk hheldc).mono ?_
      rintro - s1 ⟨h1, -⟩
      refine ⟨s1, rfl, (Sys.free_runs h1.kernel (h1.touches.held b (fun h => hbc h) hheldb)).mono ?_⟩
      rintro - s2 ⟨h2, -⟩
      exact (h1.mono (by simp) (Set.Subset.refl _)).trans (h2.mono (by simp) (Set.Subset.refl _))

/-- The walk down the path: an item is given up for one of its directory, and there is none. -/
theorem directoryEntryLoop_reads {s0 : Sys} {fuel nextPart : Nat} {item : FatItem}
    (h : Searched s0 (some item) s) :
    Runs (fun _ => True) (fat16DirectoryEntryLoop fuel nextPart (some item)) s (Searched s0) := by
  have hnone : ∀ {s'}, Reads ∅ stackRange s0 s' → Searched s0 none s' :=
    fun h' => ⟨h', fun _ hx => by cases hx⟩
  cases fuel with
  | zero => exact Runs.throw trivial
  | succ fuel =>
    unfold fat16DirectoryEntryLoop
    split
    · exact Runs.pure h
    · refine Runs.bind (orFault_runs fun _ _ => trivial) ?_
      rintro it s' ⟨hit, rfl⟩
      cases hit
      split
      · exact Runs.pure (hnone h.1)
      · refine Runs.bind (Q := fun r s1 => r = none ∧ s1 = s') ?_ ?_
        · unfold fat16FindItemInItem
          split
          · exact Runs.pure ⟨rfl, rfl⟩
          · exact Runs.throw trivial
        · rintro r s1 ⟨rfl, rfl⟩
          obtain ⟨b, c, hb, hc, hbc, ⟨hb1, hb2⟩, hc1, hc2⟩ := h.2 item rfl
          refine Runs.bind (freeItem_reads h.1.kernel hb hc hbc hb1 hc1 fun _ _ => trivial) ?_
          rintro - s2 h2
          have hreads : Reads ∅ stackRange s0 s2 := by
            refine h.1.trans' (h2.mono (Set.Subset.refl _) (Set.empty_subset _)) ?_
            rintro d (rfl | rfl)
            · exact hb2
            · exact hc2
          refine Runs.get_bind ?_
          cases fuel with
          | zero => exact Runs.throw trivial
          | succ fuel =>
            unfold fat16DirectoryEntryLoop
            split
            · exact Runs.pure (hnone hreads)
            · exact Runs.throw trivial

theorem getDirectoryEntry_reads (hk : KernelHeap s.arena) (hm : Mounted s p) (path : Nat) :
    Runs (fun _ => True) (fat16GetDirectoryEntry primaryDisk path) s (Searched s) := by
  unfold fat16GetDirectoryEntry
  refine Runs.bind (hm.fsPrivate_runs (Q := fun q s' => q = p ∧ s' = s) ⟨rfl, rfl⟩) ?_
  rintro q s' ⟨rfl, rfl⟩
  refine Runs.get_bind (Runs.bind (findItemInDirectory_reads hk hm _ _) ?_)
  rintro r s1 h1
  cases r with
  | none => exact Runs.pure h1
  | some item => exact Runs.get_bind (directoryEntryLoop_reads h1)

/-! ## 5. Opening and closing -/

/-- A descriptor at block `d`, with its item at `b` and the clone of its entry at `c`: three
objects that did not exist in `base`. -/
structure NewDescriptor (base a : Arena) (desc : FatFileDescriptor) (d b c : Nat) : Prop where
  address : desc.address = blockAt d
  itemBlock : desc.item.address = blockAt b
  entryBlock : desc.item.itemAddress = blockAt c
  apart : b ≠ c ∧ d ≠ b ∧ d ≠ c
  held : ∀ x ∈ ({d, b, c} : Set Nat), Held a x ∧ ¬ Held base x

/-- A new item next to a new descriptor. -/
theorem NewItem.descriptor {a0 a1 a2 : Arena} {d : Nat} {item : FatItem} (hnew : New a0 a1 d)
    (h : NewItem a1 a2 item) {W : Set Nat} (ht : Touches ∅ W a1 a2) :
    ∃ b c, NewDescriptor a0 a2 { address := blockAt d, item, pos := 0 } d b c := by
  obtain ⟨b, c, hb, hc, hbc, ⟨hb1, hb2⟩, hc1, hc2⟩ := h
  have hold : ∀ x, Held a0 x → Held a1 x := fun x => hnew.touches.held x (Set.notMem_empty x)
  refine ⟨b, c, rfl, hb, hc, ⟨hbc, ?_, ?_⟩, ?_⟩
  · rintro rfl
    exact hb2 hnew.held
  · rintro rfl
    exact hc2 hnew.held
  · rintro x (rfl | rfl | rfl)
    · exact ⟨ht.held x (Set.notMem_empty x) hnew.held, hnew.fresh⟩
    · exact ⟨hb1, fun h => hb2 (hold x h)⟩
    · exact ⟨hc1, fun h => hc2 (hold x h)⟩

/-- What `fat16_open` answers: an error, or a new descriptor; older objects are not touched. -/
def Opened (s : Sys) (r : Except Int FatFileDescriptor) (s' : Sys) : Prop :=
  Reads ∅ stackRange s s' ∧
    ∀ desc, r = .ok desc → ∃ d b c, NewDescriptor s.arena s'.arena desc d b c

theorem newFileItem_runs (hk : KernelHeap s.arena)
    (hs : (freeBlocks s.arena.heap).card < 2 → ∀ e, stop e) :
    Runs stop fat16NewFileItem s fun item s' => Reads ∅ ∅ s s' ∧ NewItem s.arena s'.arena item ∧
      item.item = kokoItem ∧ item.type = .file ∧
      (freeBlocks s.arena.heap).card = (freeBlocks s'.arena.heap).card + 2 := by
  unfold fat16NewFileItem
  refine Runs.bind (Sys.zalloc_runs hk (by omega) (by omega) fun h0 => hs (by omega)) ?_
  rintro q s1 ⟨b, rfl, hnew1, h1, hcard1⟩
  refine Runs.bind (Sys.zalloc_runs h1.kernel (by omega) (by omega) fun h0 => hs (by omega)) ?_
  rintro q s2 ⟨c, rfl, hnew2, h2, hcard2⟩
  have hlen : kokoItem.length = 32 := rfl
  refine Runs.bind (storeMem_runs h2.kernel hnew2.held fun x hx =>
    blit_of_not_mem (by rw [hlen]; omega)) ?_
  rintro - s3 ⟨h3, hheap, -⟩
  have hcfresh : ¬ Held s.arena c := fun hc => hnew2.fresh (h1.touches.held c (Set.notMem_empty c) hc)
  have hbc : b ≠ c := hnew2.ne hnew1.held
  have hb3 : Held s3.arena b := h3.touches.held b (fun h => hbc h)
    (h2.touches.held b (Set.notMem_empty b) hnew1.held)
  refine Runs.pure ⟨(h1.trans h2).trans' h3 fun x hx => Set.mem_singleton_iff.mp hx ▸ hcfresh,
    ⟨b, c, rfl, rfl, hbc, ⟨hb3, hnew1.fresh⟩, ⟨hnew2.held.lt, hheap ▸ hnew2.held.word⟩, hcfresh⟩,
    rfl, rfl, ?_⟩
  rw [hheap]
  omega

/-- **Opening** leaves every object that was there alone. -/
theorem fat16Open_reads (hk : KernelHeap s.arena) (hm : Mounted s p) (path : Nat)
    (mode : FileMode) :
    Runs (fun _ => True) (fat16Open primaryDisk path mode) s (Opened s) := by
  have hsub := Set.empty_subset stackRange
  have hempty := Set.Subset.refl (∅ : Set Nat)
  cases mode with
  | append => exact Runs.pure ⟨Reads.refl hk _ _, fun _ h => by cases h⟩
  | read =>
    change Runs _ (fat16OpenForRead primaryDisk path) s _
    unfold fat16OpenForRead
    refine Runs.bind (Sys.zalloc_runs hk (by omega) (by omega) fun _ _ => trivial) ?_
    rintro q s1 ⟨d, rfl, hnew, h1, -⟩
    rw [if_neg (Nat.ne_of_gt (blockAt_pos d))]
    have h1' := h1.mono hempty hsub
    refine Runs.bind (getDirectoryEntry_reads h1.kernel (h1.mounted hm) path) ?_
    rintro r s2 ⟨h2, hitem⟩
    cases r with
    | none =>
      refine Runs.bind (Sys.free_runs h2.kernel
        (h2.touches.held d (Set.notMem_empty d) hnew.held)) ?_
      rintro - s3 ⟨h3, -⟩
      refine Runs.pure ⟨(h1'.trans h2).trans' (h3.mono (Set.Subset.refl _) hsub) ?_,
        fun _ h => by cases h⟩
      exact fun x hx => Set.mem_singleton_iff.mp hx ▸ hnew.fresh
    | some item =>
      refine Runs.pure ⟨h1'.trans h2, fun desc hdesc => ?_⟩
      cases hdesc
      obtain ⟨b, c, h⟩ := (hitem item rfl).descriptor hnew h2.touches
      exact ⟨d, b, c, h⟩
  | write =>
    change Runs _ (fat16OpenForWrite primaryDisk path) s _
    unfold fat16OpenForWrite
    refine Runs.bind (Sys.zalloc_runs hk (by omega) (by omega) fun _ _ => trivial) ?_
    rintro q s1 ⟨d, rfl, hnew, h1, -⟩
    rw [if_neg (Nat.ne_of_gt (blockAt_pos d))]
    have h1' := h1.mono hempty hsub
    refine Runs.bind (getDirectoryEntry_reads h1.kernel (h1.mounted hm) path) ?_
    rintro r s2 ⟨h2, hitem⟩
    cases r with
    | none =>
      refine Runs.bind (newFileItem_runs h2.kernel fun _ _ => trivial) ?_
      rintro item s3 ⟨h3, hnew3, -⟩
      have h23 := h2.trans (h3.mono hempty hsub)
      refine Runs.pure ⟨h1'.trans h23, fun desc hdesc => ?_⟩
      cases hdesc
      obtain ⟨b, c, h⟩ := (hnew3.since h2.touches).descriptor hnew h23.touches
      exact ⟨d, b, c, h⟩
    | some item =>
      refine Runs.pure ⟨h1'.trans h2, fun desc hdesc => ?_⟩
      cases hdesc
      obtain ⟨b, c, h⟩ := (hitem item rfl).descriptor hnew h2.touches
      exact ⟨d, b, c, h⟩

/-- **Closing** releases the three objects of the descriptor, unless its item is never freed; it answers
`OK`. -/
theorem fat16Close_runs {base : Arena} (hk : KernelHeap s.arena) {desc : FatFileDescriptor}
    {d b c : Nat} (h : NewDescriptor base s.arena desc d b c)
    (hs : desc.item.FreesName → ∀ e, stop e) :
    Runs stop (fat16Close desc) s fun code s' => code = ok ∧ Reads {d, b, c} ∅ s s' := by
  have hheld := fun x hx => (h.held x hx).1
  obtain ⟨hbc, hdb, hdc⟩ := h.apart
  unfold fat16Close
  refine Runs.bind (freeItem_reads hk h.itemBlock h.entryBlock hbc (hheld b (by simp))
    (hheld c (by simp)) hs) ?_
  rintro - s1 h1
  have hd1 : Held s1.arena d := by
    refine h1.touches.held d ?_ (hheld d (by simp))
    rintro (h | h)
    · exact hdb h
    · exact hdc h
  rw [h.address]
  refine Runs.bind (Sys.free_runs h1.kernel hd1) ?_
  rintro - s2 ⟨h2, -⟩
  exact Runs.pure ⟨rfl, (h1.mono (by simp) (Set.Subset.refl _)).trans
    (h2.mono (by simp) (Set.Subset.refl _))⟩

/-! ## 6. Names that the root directory does not have -/

/-- No item of the directory has the name `c`, in upper or lower case. -/
def Absent (directory : FatDirectory) (c : List UInt8) : Prop :=
  ∀ i < directory.total, ∀ name,
    fat16GetFullRelativeFilename (directory.loaded.drop i).flatten = some name →
      name.map strToLower ≠ c.map strToLower

/-- An empty directory has no name. -/
theorem absent_of_empty {directory : FatDirectory} (h : directory.total = 0) (c : List UInt8) :
    Absent directory c := fun i hi => absurd hi (by omega)

theorem toProperString_nz {input name : List UInt8} (h : fat16ToProperString input = some name) :
    0 ∉ name := by
  unfold fat16ToProperString at h
  dsimp only at h
  split at h
  · obtain rfl := Option.some_inj.mp h
    intro hmem
    simpa using List.mem_takeWhile_imp hmem
  · cases h

/-- The name of an item is a string that fits the array it is put in. -/
theorem fullName_string {bytes name : List UInt8}
    (h : fat16GetFullRelativeFilename bytes = some name) : 0 ∉ name ∧ name.length < 256 := by
  have hfits : ∀ {full : List UInt8}, 0 ∉ full →
      (if full.length < kernelMaxPathSize then some full else none) = some name →
      0 ∉ name ∧ name.length < 256 := by
    intro full hnz hfull
    split at hfull
    · next hlt =>
      obtain rfl := Option.some_inj.mp hfull
      exact ⟨hnz, hlt⟩
    · cases hfull
  unfold fat16GetFullRelativeFilename at h
  obtain ⟨base, hbase, h⟩ := Option.bind_eq_some_iff.mp h
  obtain ⟨ext0, -, h⟩ := Option.bind_eq_some_iff.mp h
  dsimp only at h
  split at h
  · obtain ⟨ext, hext, h⟩ := Option.bind_eq_some_iff.mp h
    refine hfits ?_ h
    simp [toProperString_nz hbase, toProperString_nz hext]
  · exact hfits (toProperString_nz hbase) h

/-- A part of a path, at block `pb`, with its name, at block `nb`. -/
structure NamedPart (a : Arena) (pb nb : Nat) (c : List UInt8) : Prop where
  name : u32 a.mem (blockAt pb) = blockAt nb
  held : Held a pb ∧ Held a nb
  str : CString a.mem (blockAt nb) c
  nz : 0 ∉ c
  short : c.length < 4096

theorem NamedPart.touches {a a' : Arena} {pb nb : Nat} {c : List UInt8} (h : NamedPart a pb nb c)
    {W : Set Nat} (ht : Touches ∅ W a a') : NamedPart a' pb nb c where
  name := (ht.firstWord (Set.notMem_empty pb) h.held.1).trans h.name
  held := ⟨ht.held pb (Set.notMem_empty pb) h.held.1, ht.held nb (Set.notMem_empty nb) h.held.2⟩
  str := ht.cstring (Set.notMem_empty nb) h.held.2 h.short h.str
  nz := h.nz
  short := h.short

/-- The search for an absent name goes through the items, and finds none. -/
theorem findLoop_absent {directory : FatDirectory} {pb nb : Nat} {c : List UInt8}
    (habs : Absent directory c) (hpart : NamedPart s.arena pb nb c)
    (hs : directory.total ≠ 0 → ∀ e, stop e) {fuel i : Nat} (hi : i + fuel = directory.total) :
    Runs stop (fat16FindLoop primaryDisk directory (blockAt nb) fuel i none) s fun r s' =>
      r = none ∧ s' = s := by
  induction fuel generalizing i with
  | zero => exact Runs.pure ⟨rfl, rfl⟩
  | succ fuel ih =>
    have hstop := hs (by omega)
    unfold fat16FindLoop
    refine Runs.bind (orFault_runs fun _ => hstop) ?_
    rintro dirItem s' ⟨-, rfl⟩
    refine Runs.bind (orFault_runs fun _ => hstop) ?_
    rintro name s1 ⟨hname, rfl⟩
    obtain ⟨hnz, hlen⟩ := fullName_string hname
    have hshort := hpart.short
    obtain ⟨cmp, hcmp, hiff⟩ := hpart.str.strIcmp_eq hpart.nz (by omega) hnz (by omega)
    refine Runs.get_bind ?_
    rw [hcmp]
    refine Runs.bind (Runs.pure (Q := fun x s' => x = cmp ∧ s' = s1) ⟨rfl, rfl⟩) ?_
    rintro x s' ⟨rfl, rfl⟩
    rw [if_neg fun hok => habs i (by omega) name hname (hiff.mp hok)]
    exact ih (by omega)

/-- **Nothing is found under a name that is absent.** -/
theorem getDirectoryEntry_absent (hm : Mounted s p) {pb nb : Nat} {c : List UInt8}
    (habs : Absent p.rootDirectory c) (hpart : NamedPart s.arena pb nb c)
    (hs : p.rootDirectory.total ≠ 0 → ∀ e, stop e) :
    Runs stop (fat16GetDirectoryEntry primaryDisk (blockAt pb)) s fun r s' => r = none ∧ s' = s := by
  unfold fat16GetDirectoryEntry
  refine Runs.bind (hm.fsPrivate_runs (Q := fun q s' => q = p ∧ s' = s) ⟨rfl, rfl⟩) ?_
  rintro q s' ⟨rfl, rfl⟩
  refine Runs.get_bind ?_
  rw [hpart.name]
  refine Runs.bind (findLoop_absent habs hpart hs (Nat.zero_add _)) ?_
  rintro r s1 ⟨rfl, rfl⟩
  exact Runs.pure ⟨rfl, rfl⟩

/-- Opening for writing makes a new file, with three objects. -/
theorem openForWrite_absent (hk : KernelHeap s.arena) (hm : Mounted s p) {pb nb : Nat}
    {name : List UInt8} (habs : Absent p.rootDirectory name) (hpart : NamedPart s.arena pb nb name)
    (hs : (freeBlocks s.arena.heap).card < 3 ∨ p.rootDirectory.total ≠ 0 → ∀ e, stop e) :
    Runs stop (fat16Open primaryDisk (blockAt pb) .write) s fun r s' => Reads ∅ ∅ s s' ∧
      (∃ d b c item, r = .ok ⟨blockAt d, item, 0⟩ ∧ item.item = kokoItem ∧ item.type = .file ∧
        NewDescriptor s.arena s'.arena ⟨blockAt d, item, 0⟩ d b c) ∧
      (freeBlocks s.arena.heap).card = (freeBlocks s'.arena.heap).card + 3 := by
  change Runs _ (fat16OpenForWrite primaryDisk (blockAt pb)) s _
  unfold fat16OpenForWrite
  refine Runs.bind (Sys.zalloc_runs hk (by omega) (by omega) fun h0 => hs (Or.inl (by omega))) ?_
  rintro q s1 ⟨d, rfl, hnew, h1, hcard1⟩
  rw [if_neg (Nat.ne_of_gt (blockAt_pos d))]
  refine Runs.bind (getDirectoryEntry_absent (h1.mounted hm) habs (hpart.touches h1.touches)
    fun h0 => hs (Or.inr h0)) ?_
  rintro r s' ⟨rfl, rfl⟩
  refine Runs.bind (newFileItem_runs h1.kernel fun h0 => hs (Or.inl (by omega))) ?_
  rintro item s3 ⟨h3, hnew3, hitem, htype, hcard3⟩
  obtain ⟨b, c, h⟩ := hnew3.descriptor hnew h3.touches
  exact Runs.pure ⟨h1.trans h3, ⟨d, b, c, item, rfl, hitem, htype, h⟩, by omega⟩

/-- Opening for reading finds nothing. -/
theorem openForRead_absent (hk : KernelHeap s.arena) (hm : Mounted s p) {pb nb : Nat}
    {name : List UInt8} (habs : Absent p.rootDirectory name) (hpart : NamedPart s.arena pb nb name)
    (hs : (freeBlocks s.arena.heap).card = 0 ∨ p.rootDirectory.total ≠ 0 → ∀ e, stop e) :
    Runs stop (fat16Open primaryDisk (blockAt pb) .read) s fun r s' => Reads ∅ ∅ s s' ∧
      r = .error fsCannotGetFile := by
  change Runs _ (fat16OpenForRead primaryDisk (blockAt pb)) s _
  unfold fat16OpenForRead
  refine Runs.bind (Sys.zalloc_runs hk (by omega) (by omega) fun h0 => hs (Or.inl h0)) ?_
  rintro q s1 ⟨d, rfl, hnew, h1, -⟩
  rw [if_neg (Nat.ne_of_gt (blockAt_pos d))]
  refine Runs.bind (getDirectoryEntry_absent (h1.mounted hm) habs (hpart.touches h1.touches)
    fun h0 => hs (Or.inr h0)) ?_
  rintro r s' ⟨rfl, rfl⟩
  refine Runs.bind (Sys.free_runs h1.kernel hnew.held) ?_
  rintro - s3 ⟨h3, -⟩
  exact Runs.pure ⟨h1.trans' h3 fun x hx => Set.mem_singleton_iff.mp hx ▸ hnew.fresh, rfl⟩

end

end KokoOs
