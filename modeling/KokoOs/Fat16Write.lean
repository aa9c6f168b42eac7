/-
# What a write to a file changes on the disk

The first write of an item gives it a cluster and puts its entry behind those of the root
directory; every write puts its bytes at the first cluster of the item.  Nothing else of the disk
changes (`fat16Write_runs`): the file allocation table never does, so the cluster is not taken.

* **The search.**  `freeClusterLoop_runs`: the loop finds the first number whose word is 0, in the order in
  which the 16-bit numbers go around (`FreeAt`).  A free cluster behind the end of the volume becomes an
  error code, cut to 16 bits, and is used like any other (`searchResult`).
* **The slot.**  The entry goes to the end marker of the root directory, wherever that is
  (`getNextItemPosition_runs`).
* **The data.**  They go to the disk in one request, from the first sector of the cluster on
  (`writeData_runs`).

`Ready` is what a volume must have so that a first write returns, and `Fresh` the case of an empty one,
where the search ends in its first turn.
-/
import KokoOs.Fat16Mount

namespace KokoOs

open Bytes Prog

/-! ## 1. The table, as the driver reads it -/

/-- The word that the driver takes for the entry of a cluster. -/
def fatWord (image : Mem) (header : FatHeader) (cluster : Nat) : Nat :=
  u16 image (header.reservedSectors * (cluster * 2) % 2 ^ 32)

section

variable {stop : Halt → Prop} {s : Sys} {p : FatPrivate}

theorem u16_congr {m m' : Mem} {a b : Nat} (h0 : m a = m' b) (h1 : m (a + 1) = m' (b + 1)) :
    u16 m a = u16 m' b := by
  unfold u16
  rw [h0, h1]

/-- The word of a cluster is on the device. -/
def OnDevice (s : Sys) (header : FatHeader) (cluster : Nat) : Prop :=
  header.reservedSectors * (cluster * 2) % 2 ^ 32 / 512 < s.ata.sectors

/-- A word of the table never lies across two sectors, so it is read as it is.  The read needs a block
for its sector, and the device has to have it. -/
theorem getFatEntry_runs (hk : KernelHeap s.arena) (hm : Mounted s p) (cluster : Nat)
    (hs : ¬ ((freeBlocks s.arena.heap).card ≠ 0 ∧ OnDevice s p.header cluster) → ∀ e, stop e) :
    Runs stop (fat16GetFatEntry primaryDisk cluster) s fun e s' =>
      e = (fatWord s.ata.image p.header cluster : Int) ∧ Reads ∅ stackRange s s' ∧
      (freeBlocks s.arena.heap).card ≤ (freeBlocks s'.arena.heap).card ∧
      (freeBlocks s.arena.heap).card ≠ 0 ∧ OnDevice s p.header cluster := by
  have heven : p.header.reservedSectors * (cluster * 2) % 2 ^ 32 % 2 = 0 := by
    rw [← Nat.mul_assoc]
    omega
  unfold fat16GetFatEntry
  refine Runs.bind (hm.fsPrivate_runs (Q := fun q s' => q = p ∧ s' = s) ⟨rfl, rfl⟩) ?_
  rintro q s' ⟨rfl, rfl⟩
  dsimp only
  rw [if_neg hm.fatStream.1]
  refine Runs.bind (diskStreamSeek_runs hk _) ?_
  rintro code s1 ⟨rfl, h1, harena, hpos⟩
  rw [if_neg (by simp)]
  refine Runs.bind (readStack_runs h1.kernel (h1.streams _ hm.fatStream.2) (by omega) (by omega)
    fun hbad => hs fun hgood => ?_) ?_
  · unfold OnDevice at hgood
    rw [harena, hpos, h1.ata] at hbad
    omega
  rintro code s2 ⟨rfl, h2, -, hbytes, hcard⟩
  rw [if_neg (by simp)]
  rw [hpos, h1.image] at hbytes
  rw [harena, hpos, h1.ata] at hcard
  refine Runs.get_bind (Runs.pure ⟨congrArg Int.ofNat (u16_congr ?_ ?_), ?_, hcard⟩)
  · exact hbytes 0 (by omega) (by omega)
  · exact hbytes 1 (by omega) (by omega)
  · exact (h1.mono (Set.Subset.refl _) (Set.empty_subset _)).trans h2

/-! ## 2. The search for a cluster -/

/-- The cluster that a search from `c` on looks at in turn `j`: the numbers have 16 bits. -/
def turn (c j : Nat) : Nat := (c + j) % 2 ^ 16

/-- In turn `j` a search from `c` on finds the first word that is 0. -/
structure FreeAt (image : Mem) (header : FatHeader) (c j : Nat) : Prop where
  word : fatWord image header (turn c j) = 0
  before : ∀ i < j, fatWord image header (turn c i) ≠ 0

/-- What `fat16_get_free_cluster` makes of a cluster that is free: behind the end of the volume, an
error code that is cut to 16 bits. -/
def searchResult (endCluster c : Nat) : Nat :=
  if c > endCluster then toUnsigned systemFail % 2 ^ 16 else c

theorem searchResult_lt {endCluster c : Nat} (hc : c < 2 ^ 16) : searchResult endCluster c < 2 ^ 16 := by
  unfold searchResult
  split
  · decide
  · exact hc

theorem isEntryFree_iff {n : Nat} : fat16IsEntryFree (n : Int) = true ↔ n = 0 := by
  simp [fat16IsEntryFree]

theorem turn_lt (c j : Nat) : turn c j < 2 ^ 16 := Nat.mod_lt _ (by omega)

theorem turn_zero {c : Nat} (hc : c < 2 ^ 16) : turn c 0 = c := Nat.mod_eq_of_lt hc

/-- The next turn is the first one of the search that goes on. -/
theorem turn_succ (c j : Nat) : turn c (j + 1) = turn ((c + 1) % 2 ^ 16) j := by
  unfold turn
  omega

theorem FreeAt.zero {image : Mem} {header : FatHeader} {c : Nat} (hc : c < 2 ^ 16)
    (h : fatWord image header c = 0) : FreeAt image header c 0 :=
  ⟨(turn_zero hc).symm ▸ h, fun i hi => absurd hi (Nat.not_lt_zero i)⟩

theorem FreeAt.succ {image : Mem} {header : FatHeader} {c j : Nat} (hc : c < 2 ^ 16)
    (h : fatWord image header c ≠ 0) (hj : FreeAt image header ((c + 1) % 2 ^ 16) j) :
    FreeAt image header c (j + 1) := by
  refine ⟨turn_succ c j ▸ hj.word, fun i hi => ?_⟩
  cases i with
  | zero => exact (turn_zero hc).symm ▸ h
  | succ i => exact turn_succ c i ▸ hj.before i (by omega)

/-- The turn is the only one. -/
theorem FreeAt.unique {image : Mem} {header : FatHeader} {c i j : Nat} (hi : FreeAt image header c i)
    (hj : FreeAt image header c j) : i = j := by
  rcases Nat.lt_trichotomy i j with h | h | h
  · exact absurd hi.word (hj.before i h)
  · exact h
  · exact absurd hj.word (hi.before j h)

/-- The search comes around after `2 ^ 16` turns. -/
theorem FreeAt.lt {image : Mem} {header : FatHeader} {c j : Nat} (h : FreeAt image header c j) :
    j < 2 ^ 16 := by
  by_contra hge
  obtain ⟨k, rfl⟩ := Nat.exists_eq_add_of_le (Nat.not_lt.mp hge)
  have hsame : turn c (2 ^ 16 + k) = turn c k := by
    unfold turn
    omega
  have hword := h.word
  rw [hsame] at hword
  exact h.before k (by omega) hword

/-- **The loop finds the first number whose word is 0**, if it returns.  It does return if there is
one, as long as the heap has a free block and the words up to it are on the device; and it does not
return otherwise. -/
theorem freeClusterLoop_runs {clustersRequired endCluster fuel c : Nat} (hk : KernelHeap s.arena)
    (hm : Mounted s p) (hc : c < 2 ^ 16)
    (hs : ¬ ((freeBlocks s.arena.heap).card ≠ 0 ∧ ∃ j < fuel, FreeAt s.ata.image p.header c j ∧
      ∀ i ≤ j, OnDevice s p.header (turn c i)) → ∀ e, stop e) :
    Runs stop (fat16FreeClusterLoop primaryDisk clustersRequired endCluster fuel c c) s fun r s' =>
      Reads ∅ stackRange s s' ∧ (freeBlocks s.arena.heap).card ≤ (freeBlocks s'.arena.heap).card ∧
      ∃ j < fuel, FreeAt s.ata.image p.header c j ∧ r = searchResult endCluster (turn c j) ∧
        (freeBlocks s.arena.heap).card ≠ 0 ∧ ∀ i ≤ j, OnDevice s p.header (turn c i) := by
  induction fuel generalizing s c with
  | zero =>
    refine Runs.throw (hs ?_ _)
    rintro ⟨-, j, hj, -⟩
    exact Nat.not_lt_zero j hj
  | succ fuel ih =>
    unfold fat16FreeClusterLoop
    refine Runs.bind (getFatEntry_runs hk hm c fun hbad => hs ?_) ?_
    · rintro ⟨hfree, j, -, -, hdev⟩
      have h0 := hdev 0 (Nat.zero_le j)
      rw [turn_zero hc] at h0
      exact hbad ⟨hfree, h0⟩
    rintro e s1 ⟨rfl, h1, hcard, hroom, hdev⟩
    by_cases hzero : fatWord s.ata.image p.header c = 0
    · have hfirst := FreeAt.zero hc hzero
      rw [isEntryFree_iff.mpr hzero, if_neg (by decide)]
      have hresult : ∀ r, r = searchResult endCluster c →
          ∃ j < fuel + 1, FreeAt s.ata.image p.header c j ∧ r = searchResult endCluster (turn c j) ∧
            (freeBlocks s.arena.heap).card ≠ 0 ∧ ∀ i ≤ j, OnDevice s p.header (turn c i) := by
        intro r hr
        refine ⟨0, Nat.succ_pos fuel, hfirst, by rw [turn_zero hc]; exact hr, hroom, fun i hi => ?_⟩
        rw [Nat.le_zero.mp hi, turn_zero hc]
        exact hdev
      split
      · next hend => exact Runs.pure ⟨h1, hcard, hresult _ (if_pos hend).symm⟩
      · next hend =>
        rw [if_pos (by omega)]
        exact Runs.pure ⟨h1, hcard, hresult _ (if_neg hend).symm⟩
    · have hfree : fat16IsEntryFree (fatWord s.ata.image p.header c : Int) = false := by
        rw [← Bool.not_eq_true, isEntryFree_iff]
        exact hzero
      rw [hfree, if_pos (by decide)]
      refine (ih h1.kernel (h1.mounted hm) (Nat.mod_lt _ (by omega)) fun hbad => hs ?_).mono ?_
      · rintro ⟨hne, j, hj, hat, hdev⟩
        cases j with
        | zero => exact hzero (turn_zero hc ▸ hat.word)
        | succ j =>
          refine hbad ⟨by omega, j, by omega, ?_, fun i hi => ?_⟩
          · rw [h1.image]
            exact ⟨turn_succ c j ▸ hat.word, fun i hi =>
              turn_succ c i ▸ hat.before (i + 1) (by omega)⟩
          · have hi' := hdev (i + 1) (by omega)
            unfold OnDevice at hi' ⊢
            rwa [h1.sectors, ← turn_succ]
      · rintro r s2 ⟨h2, hcard2, j, hj, hat, hr, -, hdev2⟩
        rw [h1.image] at hat
        refine ⟨h1.trans h2, by omega, j + 1, by omega, hat.succ hc hzero, ?_, hroom, fun i hi => ?_⟩
        · rw [turn_succ]
          exact hr
        · cases i with
          | zero =>
            rw [turn_zero hc]
            exact hdev
          | succ i =>
            have hi' := hdev2 i (by omega)
            unfold OnDevice at hi' ⊢
            rwa [turn_succ, ← h1.sectors]

/-- `fat16_get_free_cluster` searches from 3 on. -/
theorem getFreeCluster_runs (hk : KernelHeap s.arena) (hm : Mounted s p) (total : Nat)
    (hs : ¬ (fat16ClusterSize (s.disks primaryDisk) p ≠ 0 ∧ (freeBlocks s.arena.heap).card ≠ 0 ∧
      ∃ j, FreeAt s.ata.image p.header 3 j ∧ ∀ i ≤ j, OnDevice s p.header (turn 3 i)) →
      ∀ e, stop e) :
    Runs stop (fat16GetFreeCluster primaryDisk total) s fun r s' =>
      Reads ∅ stackRange s s' ∧ (freeBlocks s.arena.heap).card ≤ (freeBlocks s'.arena.heap).card ∧
      ∃ j, FreeAt s.ata.image p.header 3 j ∧
        r = searchResult (fat16EndCluster (s.disks primaryDisk) p) (turn 3 j) := by
  unfold fat16GetFreeCluster
  refine Runs.bind (diskOf_runs (Q := fun d s' => d = s.disks primaryDisk ∧ s' = s) ⟨rfl, rfl⟩) ?_
  rintro d s' ⟨rfl, rfl⟩
  refine Runs.bind (hm.fsPrivate_runs (Q := fun q s1 => q = p ∧ s1 = s') ⟨rfl, rfl⟩) ?_
  rintro q s1 ⟨rfl, rfl⟩
  split
  · next hzero => exact Runs.throw (hs (fun h => h.1 hzero) _)
  · next hsize =>
    refine (freeClusterLoop_runs hk hm (by omega) fun hbad => hs ?_).mono ?_
    · rintro ⟨-, hne, j, hat, hdev⟩
      have hlt := hat.lt
      exact hbad ⟨hne, j, by omega, hat, hdev⟩
    · rintro r s2 ⟨h2, hcard, j, -, hat, hr, -⟩
      exact ⟨h2, hcard, j, hat, hr⟩

/-! ## 3. The next entry -/

/-- `fat16_get_next_item_position`: the first end marker from the root directory on, whose position may
have gone around. -/
theorem getNextItemPosition_scans (hk : KernelHeap s.arena) (hm : Mounted s p)
    (hs : ¬ CanScan s (rootPos p.header) (2 ^ 27) → ∀ e, stop e) :
    Runs stop (fat16GetNextItemPosition primaryDisk) s fun pos s' => Reads ∅ stackRange s s' ∧
      (freeBlocks s.arena.heap).card ≤ (freeBlocks s'.arena.heap).card ∧
      ∃ k < 2 ^ 27, ScanEnd s.ata.image (rootPos p.header) k ∧
        pos = (rootPos p.header + 32 * k) % 2 ^ 32 := by
  unfold fat16GetNextItemPosition
  refine Runs.bind (diskOf_runs (Q := fun d s' => d.sectorSize = 512 ∧ s' = s)
    ⟨hm.sectorSize, rfl⟩) ?_
  rintro d s' ⟨hd, rfl⟩
  refine Runs.bind (hm.fsPrivate_runs (Q := fun q s1 => q = p ∧ s1 = s') ⟨rfl, rfl⟩) ?_
  rintro q s1 ⟨rfl, rfl⟩
  refine Runs.bind (getTotalItems_scans hk hm hs) ?_
  rintro n s2 ⟨h2, hcard, k, hlt, rfl, hend, -⟩
  refine Runs.pure ⟨h2, hcard, k, hlt, hend, ?_⟩
  unfold fat16SectorToAbsolutePos rootPos toUnsigned
  rw [hd]
  omega

/-- If that is in front of 4 GiB, it is where the marker is. -/
theorem getNextItemPosition_runs (hk : KernelHeap s.arena) (hm : Mounted s p)
    (hs : ¬ HasEnd s (rootPos p.header) → ∀ e, stop e) :
    Runs stop (fat16GetNextItemPosition primaryDisk) s fun pos s' => Reads ∅ stackRange s s' ∧
      pos % 32 = 0 ∧ ∀ k, ItemEnd s.ata.image (rootPos p.header) k →
        pos = rootPos p.header + 32 * k ∧
        (freeBlocks s.arena.heap).card ≤ (freeBlocks s'.arena.heap).card := by
  refine (getNextItemPosition_scans hk hm fun hbad => hs fun h => hbad h.canScan).mono ?_
  rintro pos s' ⟨h, hcard, k, -, hend, rfl⟩
  refine ⟨h, by unfold rootPos; omega, fun k' hk' => ⟨?_, hcard⟩⟩
  rw [hend.unique hk'.scan]
  exact Nat.mod_eq_of_lt hk'.fits

/-! ## 4. The first write of an item -/

@[simp] theorem length_setLow16 (item : FatDirectoryItem) (cluster : Nat) :
    (item.setLow16 cluster).length = item.length := by
  simp [FatDirectoryItem.setLow16]

/-- The cluster that has been set. -/
theorem low16_setLow16 {item : FatDirectoryItem} (hlen : item.length = 32) {cluster : Nat}
    (hc : cluster < 2 ^ 16) : (item.setLow16 cluster).low16BitsFirstCluster = cluster := by
  have h26 : (item.setLow16 cluster)[26]? = some (UInt8.ofNat cluster) := by
    simp [FatDirectoryItem.setLow16, hlen]
  have h27 : (item.setLow16 cluster)[27]? = some (UInt8.ofNat (cluster / 256)) := by
    simp [FatDirectoryItem.setLow16, hlen]
  simp only [FatDirectoryItem.low16BitsFirstCluster, u16, literal, List.getD_eq_getElem?_getD,
    Nat.reduceAdd, h26, h27, Option.getD_some, UInt8.toNat_ofNat']
  omega

/-- The name and the attributes stay. -/
theorem getElem?_setLow16 {item : FatDirectoryItem} {cluster i : Nat} (hi : i < 26) :
    (item.setLow16 cluster)[i]? = item[i]? := by
  rw [FatDirectoryItem.setLow16, List.getElem?_set_ne (by omega), List.getElem?_set_ne (by omega)]

/-- The clusters are one behind the other, from cluster 2 on. -/
theorem fat16ClusterToSector_add_two (p : FatPrivate) (k : Nat) :
    fat16ClusterToSector p (k + 2) =
      (p.rootDirectory.endingSectorPos + k * p.header.sectorsPerCluster) % 2 ^ 32 := by
  have hturn : k + 2 + 2 ^ 32 - 2 = k + 2 ^ 32 := by omega
  unfold fat16ClusterToSector
  dsimp only
  rw [hturn, Nat.add_mul, ← Nat.add_assoc, Nat.add_mul_mod_self_left]

/-- Where the data of a cluster are, as the driver computes it. -/
def clusterPos (p : FatPrivate) (cluster : Nat) : Nat :=
  fat16ClusterToSector p cluster * 512 % 2 ^ 32

theorem Mounted.clusterPos_eq (hm : Mounted s p) (cluster : Nat) :
    fat16SectorToAbsolutePos (s.disks primaryDisk) (fat16ClusterToSector p cluster) =
      clusterPos p cluster := hm.sectorPos _

/-- A volume on which the first write of an item cannot go wrong: the root directory is empty, and
so is the first word that is looked at. -/
structure Fresh (s : Sys) (p : FatPrivate) : Prop where
  free : (freeBlocks s.arena.heap).card ≠ 0
  size : fat16ClusterSize (s.disks primaryDisk) p ≠ 0
  word : fatWord s.ata.image p.header 3 = 0
  table : OnDevice s p.header 3
  sector : fat16RootDirectorySector p.header < 2 ^ 23
  marker : s.ata.image (rootPos p.header) = 0
  inside : fat16RootDirectorySector p.header < s.ata.sectors
  cluster : 3 ≤ fat16EndCluster (s.disks primaryDisk) p
  data : clusterPos p 3 / 512 < s.ata.sectors

/-- On a fresh volume the search ends in its first turn. -/
theorem Fresh.freeAt (h : Fresh s p) : FreeAt s.ata.image p.header 3 0 :=
  FreeAt.zero (by omega) h.word

/-- A volume on which the first write of an item cannot go wrong, whatever is on it: the search for a
cluster ends, the root directory has an end marker, and the device has all the sectors. -/
structure Ready (s : Sys) (p : FatPrivate) : Prop where
  size : fat16ClusterSize (s.disks primaryDisk) p ≠ 0
  table : ∃ j, FreeAt s.ata.image p.header 3 j ∧ ∀ i ≤ j, OnDevice s p.header (turn 3 i)
  root : HasEnd s (rootPos p.header)
  data : ∀ j, FreeAt s.ata.image p.header 3 j → clusterPos p (searchResult (fat16EndCluster
    (s.disks primaryDisk) p) (turn 3 j)) / 512 < s.ata.sectors

theorem Fresh.ready (h : Fresh s p) : Ready s p := by
  refine ⟨h.size, ⟨0, h.freeAt, fun i hi => ?_⟩, ⟨0, ItemEnd.zero ?_ h.marker, ?_, h.free⟩,
    fun j hat => ?_⟩
  · rw [Nat.le_zero.mp hi, turn_zero (by omega)]
    exact h.table
  · have hsector := h.sector
    unfold rootPos
    omega
  · have hinside := h.inside
    unfold rootPos
    omega
  · obtain rfl := hat.unique h.freeAt
    rw [turn_zero (by omega), searchResult, if_neg (Nat.not_lt.mpr h.cluster)]
    exact h.data

/-- What the first write of an item has done: it has set its cluster, which is what the search has
given, and put the entry at the end marker of the root directory. -/
structure FirstWritten (s : Sys) (p : FatPrivate) (item : FatItem) (c : Nat) (item' : FatItem)
    (s' : Sys) : Prop where
  quiet : Quiet {c} stackRange s s'
  held : Held s'.arena c
  cluster : ∃ cluster j, item' = { item with item := item.item.setLow16 cluster } ∧
    FreeAt s.ata.image p.header 3 j ∧
    cluster = searchResult (fat16EndCluster (s.disks primaryDisk) p) (turn 3 j)
  entry : ∃ pos, (∀ k, ItemEnd s.ata.image (rootPos p.header) k → pos = rootPos p.header + 32 * k) ∧
    (∀ x, ¬ (pos ≤ x ∧ x < pos + 32) → s'.ata.image x = s.ata.image x) ∧
    slice s'.ata.image pos 32 = item'.item
  card : Ready s p → (freeBlocks s.arena.heap).card ≤ (freeBlocks s'.arena.heap).card

theorem fat16FirstWrite_runs (hk : KernelHeap s.arena) (hm : Mounted s p) {item : FatItem} {c : Nat}
    (hlen : item.item.length = 32) (haddr : item.itemAddress = blockAt c) (hc : Held s.arena c)
    (size : Nat) (hs : ¬ Ready s p → ∀ e, stop e) :
    Runs stop (fat16FirstWrite primaryDisk item size) s (FirstWritten s p item c) := by
  have hsub := Set.empty_subset stackRange
  unfold fat16FirstWrite
  refine Runs.bind (hm.fsPrivate_runs (Q := fun q s' => q = p ∧ s' = s) ⟨rfl, rfl⟩) ?_
  rintro q s' ⟨rfl, rfl⟩
  refine Runs.bind (getFreeCluster_runs hk hm size fun hbad => hs fun h =>
    hbad ⟨h.size, h.root.choose_spec.2.2, h.table⟩) ?_
  rintro cluster s1 ⟨h1, hcard1, j, hat, hcluster⟩
  have hc1 := h1.touches.held c (Set.notMem_empty c) hc
  rw [haddr]
  refine Runs.bind (storeMem_runs h1.kernel hc1 fun x hx => blit_of_not_mem ?_) ?_
  · rw [length_setLow16, hlen]
    omega
  rintro - s2 ⟨h2, hheap, hmem⟩
  have hm2 := h2.mounted (h1.mounted hm)
  have h12 : Reads {c} stackRange s' s2 :=
    (h1.mono (Set.empty_subset _) (Set.Subset.refl _)).trans (h2.mono (Set.Subset.refl _) hsub)
  refine Runs.bind (getNextItemPosition_runs h2.kernel hm2 fun hbad => hs fun h => hbad ?_) ?_
  · obtain ⟨k, hend, hin, hfree⟩ := h.root
    refine ⟨k, ?_, ?_, ?_⟩
    · rwa [h12.image]
    · rwa [h12.sectors]
    · rw [hheap]
      omega
  rintro pos s3 ⟨h3, haligned, hend⟩
  refine Runs.bind (diskStreamSeek_runs h3.kernel pos) ?_
  rintro - s4 ⟨-, h4, harena4, hpos4⟩
  have h24 : Reads ∅ stackRange s2 s4 := h3.trans (h4.mono (Set.Subset.refl _) hsub)
  have h14 : Reads {c} stackRange s' s4 :=
    h12.trans (h24.mono (Set.empty_subset _) (Set.Subset.refl _))
  have hc4 : Held s4.arena c := h24.touches.held c (Set.notMem_empty c)
    ⟨hc1.lt, hheap ▸ hc1.word⟩
  have hm4 := h24.mounted hm2
  rw [h12.image, hheap] at hend
  refine Runs.bind (diskStreamWrite_any h4.kernel hm4.directoryStream (by omega) ?_
    fun hbad => hs fun h => ?_) ?_
  · unfold FitsSectors
    rw [hpos4, affectedSectors_one (by omega) (by omega)]
    omega
  · obtain ⟨k, hk, hin, hfree⟩ := h.root
    obtain ⟨rfl, h5⟩ := hend k hk
    rw [hpos4, h14.ata, harena4] at hbad
    omega
  rintro code s5 ⟨h5, hcard5, -⟩
  rw [hpos4] at h5
  have hother := h5.image
  rw [h14.image] at hother
  refine Runs.pure ⟨h14.toQuiet.trans (h5.quiet.mono (Set.empty_subset _) hsub),
    h5.quiet.touches.held c (Set.notMem_empty c) hc4, ⟨cluster, j, by rw [haddr], hat, hcluster⟩,
    ⟨pos, fun k hk => (hend k hk).1, hother, ?_⟩, fun h => ?_⟩
  · have hwritten : slice s5.ata.image pos 32 = slice s2.arena.mem (blockAt c) 32 := by
      refine slice_congr fun i hi => ?_
      rw [h5.bytes (by omega) (hc4.owned h4.kernel (by omega)) i hi]
      exact h24.touches.bytes c (Set.notMem_empty c) ⟨hc1.lt, hheap ▸ hc1.word⟩ i (by omega)
    have hentry := slice_blit s1.arena.mem (blockAt c) (item.item.setLow16 cluster)
    rw [length_setLow16, hlen] at hentry
    rw [hwritten, hmem]
    exact hentry
  · obtain ⟨k, hk, -, -⟩ := h.root
    have h7 := (hend k hk).2
    have h8 := (hcard5 ⟨by omega, by omega⟩).2
    rw [harena4] at h8
    omega

/-! ## 5. Writing -/

/-- The part of a write that every write has. -/
theorem writeData_runs (hk : KernelHeap s.arena) (hm : Mounted s p) {d : Disk}
    (hd : d.sectorSize = 512) {desc : FatFileDescriptor} {input n cluster : Nat} (hn : n < 2 ^ 32)
    (hs : ¬ ((freeBlocks s.arena.heap).card ≠ 0 ∧ clusterPos p cluster / 512 < s.ata.sectors ∧
      0 < n ∧ n ≤ 512) → ∀ e, stop e) :
    Runs stop (do
      let _ ← diskStreamSeek p.clusterReadStream
        (fat16SectorToAbsolutePos d (fat16ClusterToSector p cluster))
      let res ← diskStreamWrite p.clusterReadStream input n
      if res ≠ ok then return (diskFailToWriteStream, desc) else return (ok, desc)) s fun r s' =>
      r.2 = desc ∧ Quiet ∅ ∅ s s' ∧
      (∀ x, ¬ (clusterPos p cluster ≤ x ∧ x < clusterPos p cluster + n) →
        s'.ata.image x = s.ata.image x) ∧
      (0 < n ∧ n ≤ 512 → (freeBlocks s.arena.heap).card ≤ (freeBlocks s'.arena.heap).card) ∧
      (r.1 = ok ↔ n ≠ 0 ∧ diskStreamGetAffectedSectors n % 256 ≠ 0) := by
  refine Runs.bind (diskStreamSeek_runs hk _) ?_
  rintro - s1 ⟨-, h1, harena, hpos⟩
  unfold fat16SectorToAbsolutePos at hpos
  rw [hd] at hpos
  change _ = clusterPos p cluster at hpos
  have halign : clusterPos p cluster % 512 = 0 := by
    unfold clusterPos
    omega
  refine Runs.bind (diskStreamWrite_any h1.kernel (h1.streams _ hm.clusterStream) hn ?_
    fun hbad => hs ?_) ?_
  · unfold FitsSectors
    rw [hpos, halign, affectedSectors_eq]
    omega
  · rintro ⟨h2, h3, h4, h5⟩
    rw [harena, hpos, h1.sectors] at hbad
    omega
  rintro code s2 ⟨h2, hcard, hcode⟩
  have himage := h2.image
  rw [hpos, h1.image] at himage
  rw [harena] at hcard
  have hquiet := h1.toQuiet.trans h2.quiet
  split
  · next hne =>
    exact Runs.pure ⟨rfl, hquiet, himage, fun h => (hcard h).2,
      iff_of_false (by decide : diskFailToWriteStream ≠ ok) fun h => hne (hcode.mpr h)⟩
  · next heq =>
    exact Runs.pure ⟨rfl, hquiet, himage, fun h => (hcard h).2,
      iff_of_true rfl (hcode.mp (not_not.mp heq))⟩

/-- What a write of `n` bytes to a file has done: a first write first, if the file had no cluster,
and then nothing but `n` bytes at its cluster. -/
structure FileWritten (s : Sys) (p : FatPrivate) (desc : FatFileDescriptor) (n c : Nat)
    (desc' : FatFileDescriptor) (s' : Sys) : Prop where
  quiet : Quiet {c} stackRange s s'
  held : Held s'.arena c
  written : ∃ item' s1, desc' = { desc with item := item' } ∧
    ((desc.item.item.low16BitsFirstCluster ≠ 0 ∧ item' = desc.item ∧ s1 = s) ∨
      (desc.item.item.low16BitsFirstCluster = 0 ∧ FirstWritten s p desc.item c item' s1)) ∧
    ∀ x, ¬ (clusterPos p item'.item.low16BitsFirstCluster ≤ x ∧
      x < clusterPos p item'.item.low16BitsFirstCluster + n) → s'.ata.image x = s1.ata.image x

/-- **A write changes the new entry and the bytes at the cluster only.**  The first write of at most
a sector cannot go wrong on a fresh volume. -/
theorem fat16Write_runs (hk : KernelHeap s.arena) (hm : Mounted s p) {desc : FatFileDescriptor}
    {input n c : Nat} (hfile : desc.item.type = .file) (hlen : desc.item.item.length = 32)
    (haddr : desc.item.itemAddress = blockAt c) (hc : Held s.arena c) (hn : n < 2 ^ 32)
    (hs : ¬ (Ready s p ∧ desc.item.item.low16BitsFirstCluster = 0 ∧ 0 < n ∧ n ≤ 512) →
      ∀ e, stop e) :
    Runs stop (fat16Write primaryDisk input desc n) s fun r s' =>
      FileWritten s p desc n c r.2 s' ∧ (Ready s p →
        desc.item.item.low16BitsFirstCluster = 0 → 0 < n → n ≤ 512 →
        (freeBlocks s.arena.heap).card ≤ (freeBlocks s'.arena.heap).card) ∧
      (r.1 = ok ↔ n ≠ 0 ∧ diskStreamGetAffectedSectors n % 256 ≠ 0) := by
  have hsub := Set.empty_subset stackRange
  unfold fat16Write
  rw [if_neg (not_not.mpr hfile)]
  refine Runs.bind (diskOf_runs (Q := fun d s' => d.sectorSize = 512 ∧ s' = s)
    ⟨hm.sectorSize, rfl⟩) ?_
  rintro d s' ⟨hd, rfl⟩
  refine Runs.bind (hm.fsPrivate_runs (Q := fun q s1 => q = p ∧ s1 = s') ⟨rfl, rfl⟩) ?_
  rintro q s ⟨rfl, rfl⟩
  split
  · next hzero =>
    refine Runs.bind (fat16FirstWrite_runs hk hm hlen haddr hc n fun hbad => hs fun h => hbad h.1) ?_
    intro item' s1 h1
    refine (writeData_runs h1.quiet.kernel (h1.quiet.mounted hm) hd hn fun hbad => hs ?_).mono ?_
    · rintro ⟨hready, -, h0, hn512⟩
      obtain ⟨cluster, j, rfl, hat, rfl⟩ := h1.cluster
      obtain ⟨-, -, -, hfree⟩ := hready.root
      have hcard := h1.card hready
      have hdata := hready.data j hat
      rw [h1.quiet.sectors, low16_setLow16 hlen (searchResult_lt (turn_lt 3 j))] at hbad
      exact hbad ⟨by omega, hdata, h0, hn512⟩
    · rintro r s2 ⟨hr, h2, himage, hcard2, hcode⟩
      refine ⟨⟨h1.quiet.trans (h2.mono (Set.empty_subset _) hsub),
        h2.touches.held c (Set.notMem_empty c) h1.held, item', s1, hr, Or.inr ⟨hzero, h1⟩, himage⟩,
        fun hready _ h0 hn512 => ?_, hcode⟩
      have h4 := h1.card hready
      have h5 := hcard2 ⟨h0, hn512⟩
      omega
  · next hne =>
    refine Runs.bind (Runs.pure (Q := fun item' s1 => item' = desc.item ∧ s1 = s) ⟨rfl, rfl⟩) ?_
    rintro item' s1 ⟨rfl, rfl⟩
    refine (writeData_runs hk hm hd hn fun _ => hs fun h => hne h.2.1).mono ?_
    rintro r s2 ⟨hr, h2, himage, -, hcode⟩
    exact ⟨⟨h2.mono (Set.empty_subset _) hsub, h2.touches.held c (Set.notMem_empty c) hc, desc.item, s1,
      hr, Or.inl ⟨hne, rfl, rfl⟩, himage⟩, fun _ hzero => absurd hzero hne, hcode⟩

end

end KokoOs
