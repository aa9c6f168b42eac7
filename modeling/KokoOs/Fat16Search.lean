/-
# The search for free clusters

`fat16_get_free_cluster` stops at the first word that is 0 and never looks at the clusters behind
it.  So what it gives is good for a request of several clusters only if these happen to be free
(`freeCluster_iff`), and it ends only if there is such a word at all (`freeSearch_ends_iff`).

The clusters are looked at in the order 3, 4, .., 65535, 0, 1, 2, for the numbers have 16 bits and go
around; the search of the model is given as many turns as there are numbers, and comes back to where
it was after these.  Which word is *taken* for that of a cluster is a question of its own, which
`Fat16Chain.lean` answers; here a cluster is free as far as the driver can tell.

Both conditions fail on volumes that are in order otherwise: a request for four clusters is answered with
cluster 3 although cluster 6 is taken (`search_ignores_next_clusters`), and on a full disk the search
goes on for ever (`full_disk_search_hangs`).
-/
import KokoOs.FileBlank

namespace KokoOs

open Bytes Prog

/-! ## 1. Clusters of the volume -/

/-- The number of sectors of the volume, of which the boot sector has two fields. -/
def volumeSectors (image : Mem) : Nat := if u16 image 19 ≠ 0 then u16 image 19 else u32 image 32

/-- The sector behind the root directory. -/
def dataSector (header : FatHeader) : Nat :=
  fat16RootDirectorySector header + (header.rootDirEntries * 32 + 511) / 512

/-- A cluster whose sectors are on the volume. -/
def InVolume (image : Mem) (header : FatHeader) (cluster : Nat) : Prop :=
  2 ≤ cluster ∧ dataSector header + (cluster - 1) * header.sectorsPerCluster ≤ volumeSectors image

/-- The `n` clusters from `c` on are on the volume, and free as far as the driver can tell. -/
def FreeClusters (image : Mem) (header : FatHeader) (c n : Nat) : Prop :=
  ∀ i < n, InVolume image header (c + i) ∧ fatWord image header (c + i) = 0

/-- The clusters that `total` bytes take. -/
def clustersFor (size total : Nat) : Nat := (total + size - 1) / size

section

variable {s s' : Sys} {p : FatPrivate}

/-! ## 2. What is found -/

/-- A first write uses whatever the search gives. -/
theorem fat16FirstWrite_uses {item item' : FatItem} {size : Nat}
    (h : fat16FirstWrite primaryDisk item size s = .ok item' s') : ∃ c s1,
      fat16GetFreeCluster primaryDisk size s = .ok c s1 ∧ item'.item = item.item.setLow16 c := by
  unfold fat16FirstWrite at h
  obtain ⟨q, s0, hq, h⟩ := (bind_ok_iff _ _ _ _ _).mp h
  obtain ⟨c, s1, hc, h⟩ := (bind_ok_iff _ _ _ _ _).mp h
  obtain ⟨_, s2, -, h⟩ := (bind_ok_iff _ _ _ _ _).mp h
  obtain ⟨_, s3, -, h⟩ := (bind_ok_iff _ _ _ _ _).mp h
  obtain ⟨_, s4, -, h⟩ := (bind_ok_iff _ _ _ _ _).mp h
  obtain ⟨_, s5, -, h⟩ := (bind_ok_iff _ _ _ _ _).mp h
  obtain ⟨rfl, -⟩ := (pure_ok_iff _ _ _ _).mp h
  obtain ⟨-, rfl⟩ := orFault_ok_iff.mp hq
  exact ⟨c, s1, hc, rfl⟩

/-- **What a first write uses is a run of free clusters exactly if the first word that is 0 -- the
clusters are looked at in the order 3, 4, .., 65535, 0, 1, 2 -- begins one.**  If that word is
behind the bound of the search, the error code is used for a cluster, 65487. -/
theorem freeCluster_iff (hk : KernelHeap s.arena) (hm : Mounted s p) {item item' : FatItem}
    {size : Nat} (h : fat16FirstWrite primaryDisk item size s = .ok item' s') : ∃ c s1,
      fat16GetFreeCluster primaryDisk size s = .ok c s1 ∧ item'.item = item.item.setLow16 c ∧
      (FreeClusters s.ata.image p.header c
          (clustersFor (fat16ClusterSize (s.disks primaryDisk) p) size) ↔
        ∃ j, FreeAt s.ata.image p.header 3 j ∧
          FreeClusters s.ata.image p.header
            (if turn 3 j > fat16EndCluster (s.disks primaryDisk) p then 65487 else turn 3 j)
            (clustersFor (fat16ClusterSize (s.disks primaryDisk) p) size)) := by
  obtain ⟨c, s1, hc, hitem⟩ := fat16FirstWrite_uses h
  obtain ⟨-, -, j, hat, hresult⟩ := Runs.value (getFreeCluster_runs hk hm size fun _ _ => trivial) hc
  have hc' : c = if turn 3 j > fat16EndCluster (s.disks primaryDisk) p then 65487 else turn 3 j := by
    rw [hresult]
    rfl
  refine ⟨c, s1, hc, hitem, fun hfree => ⟨j, hat, hc' ▸ hfree⟩, ?_⟩
  rintro ⟨i, hat', hfree⟩
  rw [hc', hat.unique hat']
  exact hfree

/-- The first write of a new file on a blank volume. -/
theorem blank_firstWrite (size : Nat) : ∃ (f : FileState FatFileDescriptor) (q : FatPrivate)
    (item item' : FatItem) (s' : Sys), KernelHeap f.sys.arena ∧ Mounted f.sys q ∧
    f.sys.ata = (blankSys 0x10000000 [97]).ata ∧
    q.header = ⟨1, 1, 2, 16, 1, 100, 41⟩ ∧ fat16ClusterSize (f.sys.disks primaryDisk) q = 512 ∧
    Fresh f.sys q ∧ (∃ desc, f.fileDescriptors 0 = some desc ∧ desc.privateData.item = item) ∧
    fat16FirstWrite primaryDisk item size f.sys = .ok item' s' := by
  obtain ⟨s, f, q, desc, h⟩ := blank_file (Nat.le_refl 0x10000000) (c := [97])
    (by simp [IsComponent]) (by decide)
  obtain ⟨a, e, d, b, c, hslot⟩ := h.made.slot
  have hlen : desc.privateData.item.item.length = 32 := by
    rw [h.made.entry]
    rfl
  obtain ⟨item', s', hrun, -⟩ := Runs.total (fat16FirstWrite_runs h.blank.kernel h.blank.mounted hlen
    hslot.data.entryBlock (hslot.data.held c (by simp)).1 size fun hbad => absurd h.fresh.ready hbad)
  have hhead := h.accepted.blank_header
  refine ⟨f, q, desc.privateData.item, item', s', h.blank.kernel, h.blank.mounted, h.ata, hhead, ?_,
    h.fresh, ⟨desc, by rw [h.made.table, Function.update_self], rfl⟩, hrun⟩
  rw [h.blank.mounted.clusterSize, hhead]
  rfl

theorem freeCluster_iff_blank : ∃ s p item item' s',
    fat16FirstWrite primaryDisk item 512 s = .ok item' s' ∧ ∃ c s1,
      fat16GetFreeCluster primaryDisk 512 s = .ok c s1 ∧ item'.item = item.item.setLow16 c ∧
      (FreeClusters s.ata.image p.header c
          (clustersFor (fat16ClusterSize (s.disks primaryDisk) p) 512) ↔
        ∃ j, FreeAt s.ata.image p.header 3 j ∧
          FreeClusters s.ata.image p.header
            (if turn 3 j > fat16EndCluster (s.disks primaryDisk) p then 65487 else turn 3 j)
            (clustersFor (fat16ClusterSize (s.disks primaryDisk) p) 512)) := by
  obtain ⟨f, q, item, item', s', hk, hm, -, -, -, -, -, hrun⟩ := blank_firstWrite 512
  exact ⟨f.sys, q, item, item', s', hrun, freeCluster_iff hk hm hrun⟩

/-- **For four clusters the search answers with cluster 3, although cluster 6 is not free.** -/
theorem search_ignores_next_clusters : ∃ (f : FileState FatFileDescriptor) (q : FatPrivate)
    (item item' : FatItem) (s' : Sys), Mounted f.sys q ∧
    f.sys.ata = (blankSys 0x10000000 [97]).ata ∧
    (∃ desc, f.fileDescriptors 0 = some desc ∧ desc.privateData.item = item) ∧
    fat16FirstWrite primaryDisk item 2048 f.sys = .ok item' s' ∧
    item'.item = item.item.setLow16 3 ∧
    clustersFor (fat16ClusterSize (f.sys.disks primaryDisk) q) 2048 = 4 ∧
    ¬ FreeClusters f.sys.ata.image q.header 3 4 := by
  obtain ⟨f, q, item, item', s', hk, hm, hata, hhead, hsize, hfresh, hdesc, hrun⟩ :=
    blank_firstWrite 2048
  obtain ⟨c, s1, hc, hitem⟩ := fat16FirstWrite_uses hrun
  obtain ⟨-, -, j, hat, hresult⟩ := Runs.value (getFreeCluster_runs hk hm 2048 fun _ _ => trivial) hc
  obtain rfl := hat.unique hfresh.freeAt
  obtain rfl : c = 3 := hresult.trans (if_neg (Nat.not_lt.mpr hfresh.cluster))
  refine ⟨f, q, item, item', s', hm, hata, hdesc, hrun, hitem, by rw [hsize]; rfl, fun hfree => ?_⟩
  have hword := (hfree 3 (by omega)).2
  rw [hata, hhead] at hword
  change u16 (fun x => blankBootSector.getD x 0) 12 = 0 at hword
  exact absurd hword (by decide)

/-! ## 3. When it ends -/

/-- If there is a word that is 0, one turn is the first to find one. -/
theorem freeAt_of_word {image : Mem} {header : FatHeader} {cluster : Nat} (hlt : cluster < 2 ^ 16)
    (hword : fatWord image header cluster = 0) : ∃ j, FreeAt image header 3 j := by
  classical
  have hex : ∃ j, fatWord image header (turn 3 j) = 0 := by
    refine ⟨cluster + 65533, ?_⟩
    have hturn : turn 3 (cluster + 65533) = cluster := by
      unfold turn
      omega
    rw [hturn]
    exact hword
  exact ⟨Nat.find hex, Nat.find_spec hex, fun i hi => Nat.find_min hex hi⟩

/-- **The loop ends exactly if one of the 65536 words is 0.**  (As every read does, those of the words
up to the first one that is 0 need a block of the heap for their sector, and the device has to
have that sector.) -/
theorem freeSearch_ends_iff (hk : KernelHeap s.arena) (hm : Mounted s p) (total : Nat) :
    ((∃ fuel c s', fat16FreeClusterLoop primaryDisk
        (total / fat16ClusterSize (s.disks primaryDisk) p) (fat16EndCluster (s.disks primaryDisk) p)
        fuel 3 3 s = .ok c s') ↔
      (∃ cluster < 2 ^ 16, fatWord s.ata.image p.header cluster = 0) ∧
        (freeBlocks s.arena.heap).card ≠ 0 ∧
        ∀ j, (∀ i < j, fatWord s.ata.image p.header (turn 3 i) ≠ 0) →
          OnDevice s p.header (turn 3 j)) := by
  constructor
  · rintro ⟨fuel, c, s', h⟩
    obtain ⟨-, -, j, -, hat, -, hfree, hdev⟩ :=
      Runs.value (freeClusterLoop_runs hk hm (by omega) fun _ _ => trivial) h
    refine ⟨⟨turn 3 j, Nat.mod_lt _ (by omega), hat.word⟩, hfree, fun i hi => hdev i ?_⟩
    by_contra hlt
    exact hi j (by omega) hat.word
  · rintro ⟨⟨cluster, hlt, hword⟩, hfree, hdev⟩
    obtain ⟨j, hat⟩ := freeAt_of_word hlt hword
    have hj := hat.lt
    have hruns : Runs (fun _ => False) (fat16FreeClusterLoop primaryDisk
        (total / fat16ClusterSize (s.disks primaryDisk) p) (fat16EndCluster (s.disks primaryDisk) p)
        (2 ^ 16) 3 3) s fun _ _ => True :=
      (freeClusterLoop_runs hk hm (by omega) fun hbad => absurd
        ⟨hfree, j, hj, hat, fun i hi => hdev i fun k hki => hat.before k (by omega)⟩ hbad).mono
        fun _ _ _ => trivial
    obtain ⟨c, s', h, -⟩ := hruns.total
    exact ⟨2 ^ 16, c, s', h⟩

/-- On a blank volume the search ends. -/
theorem freeSearch_ends_iff_blank : ∃ s p, fat16ClusterSize (s.disks primaryDisk) p ≠ 0 ∧
    ((∃ fuel c s', fat16FreeClusterLoop primaryDisk
        (1 / fat16ClusterSize (s.disks primaryDisk) p) (fat16EndCluster (s.disks primaryDisk) p)
        fuel 3 3 s = .ok c s') ↔
      (∃ cluster < 2 ^ 16, fatWord s.ata.image p.header cluster = 0) ∧
        (freeBlocks s.arena.heap).card ≠ 0 ∧
        ∀ j, (∀ i < j, fatWord s.ata.image p.header (turn 3 i) ≠ 0) →
          OnDevice s p.header (turn 3 j)) := by
  obtain ⟨f, q, item, item', s', hk, hm, -, -, -, hfresh, -⟩ := blank_firstWrite 512
  exact ⟨f.sys, q, hfresh.size, freeSearch_ends_iff hk hm 1⟩

end

/-! ## 4. A full disk -/

/-- The boot sector of a volume with 256 reserved sectors, two tables of 137 sectors, 16 entries in the
root directory and 70000 sectors, in clusters of two. -/
def fullBootSector : List UInt8 :=
  [0xeb, 0x3c, 0x90] ++ List.replicate 8 32 ++ [0, 2, 2, 0, 1, 2, 16, 0, 0, 0, 0xf8, 137, 0, 32, 0,
    64, 0, 0, 0, 0, 0, 0x70, 0x11, 1, 0, 0x80, 0, 41]

/-- All of its bytes are taken, but for the end marker of the root directory. -/
def fullImage : Mem := fun x =>
  if x < 62 then fullBootSector.getD x 0 else if x = 271360 then 0 else 255

/-- A kernel in front of it. -/
def fullSys : Sys where
  arena := freshKernel fun _ => 0
  ata := { sectors := 70000, image := fullImage }
  disks := fun _ => { id := 0, type := 0, sectorSize := 512, fs := none, fsPrivate := none }
  streams := fun _ => { pos := 0, disk := primaryDisk }

theorem fullSys_header : volumeHeader fullSys = ⟨2, 256, 2, 16, 137, 70000, 41⟩ := by
  have hread : FatHeader.read fullImage 0 = FatHeader.read (fun x => fullBootSector.getD x 0) 0 :=
    FatHeader.read_congr fun i hi => if_pos (by omega)
  exact hread.trans (by decide)

/-- None of the words the driver looks at is 0: they are the first ones of the sectors. -/
theorem fullImage_words (cluster : Nat) (hlt : cluster < 2 ^ 16) :
    fatWord fullImage ⟨2, 256, 2, 16, 137, 70000, 41⟩ cluster ≠ 0 := by
  have hpos : 256 * (cluster * 2) % 2 ^ 32 = 512 * cluster := by omega
  unfold fatWord u16
  rw [hpos]
  rcases Nat.eq_zero_or_pos cluster with rfl | h0
  · decide
  · have h255 : fullImage (512 * cluster + 1) = 255 := by
      unfold fullImage
      rw [if_neg (by omega), if_neg (by omega)]
    rw [h255]
    change _ + 256 * 255 ≠ 0
    omega

/-- **On a full disk the search never ends.** -/
theorem full_disk_search_hangs : ∃ s p, fat16Resolve primaryDisk fullSys = .ok ok s ∧ Mounted s p ∧
    fat16ClusterSize (s.disks primaryDisk) p = 1024 ∧
    ∀ total fuel c s', fat16FreeClusterLoop primaryDisk
      (total / fat16ClusterSize (s.disks primaryDisk) p) (fat16EndCluster (s.disks primaryDisk) p)
      fuel 3 3 s ≠ .ok c s' := by
  have hblank : Blank fullSys := by
    have hcard : (freeBlocks fullSys.arena.heap).card = 25600 := freshKernel_free _
    refine ⟨by omega, by rw [fullSys_header], by rw [fullSys_header], ?_, ?_, ?_⟩
    · rw [fullSys_header]
      decide
    · rw [fullSys_header]
      exact (by decide : 530 < 70000)
    · rw [fullSys_header]
      change fullImage 271360 = 0
      unfold fullImage
      rw [if_neg (by omega), if_pos rfl]
  obtain ⟨s, p, hrun, hm, hacc, ht, hata, -⟩ := hblank.mountable.mounts (freshKernel_kernelHeap _) rfl rfl
  have hhead : p.header = ⟨2, 256, 2, 16, 137, 70000, 41⟩ := hacc.header.trans fullSys_header
  have hsize : fat16ClusterSize (s.disks primaryDisk) p = 1024 := by
    rw [hm.clusterSize, hhead]
    rfl
  refine ⟨s, p, hrun, hm, hsize, fun total fuel c s' h => ?_⟩
  obtain ⟨-, -, j, -, hat, -⟩ := Runs.value (freeClusterLoop_runs ht.kernel hm (by omega)
    fun _ _ => trivial) h
  have hword := hat.word
  rw [hata, hhead] at hword
  exact fullImage_words _ (Nat.mod_lt _ (by omega)) hword

end KokoOs
