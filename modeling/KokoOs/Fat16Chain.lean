/-
# The chains of the file allocation table

A volume records the chain of a file in its table: the 16-bit word of a cluster, at byte
`512 * reserved_sectors + 2 * n` of the disk, is the next cluster, or says that there is none.  The
driver looks for that word at byte `reserved_sectors * 2 * n`, and its end markers have 12 bits.

So there are two tables here.  `tableWord` is the one that is recorded, with `ChainTo` and
`ChainEnds` for the chains in it; `fatWord` is the one that the driver reads.  What it means to
follow the recorded table is `FatRight`: to read its entries, to go along its chains, and to fail
where these end.

`fatRight_iff` says for which volumes the driver does so: for those on which it finds the same word for
each cluster of the table, and on which the words that end a chain are those that it takes for invalid.
The first half is the condition on the address, the second that on the markers; with one reserved
sector the entry of cluster 6 is already looked for in the boot sector (`blank_fat_not_right`).
-/
import KokoOs.FileBlank

namespace KokoOs

open Bytes Prog

/-! ## 1. The table, as it is recorded -/

/-- The entry of a cluster in the first table of the volume. -/
def tableWord (image : Mem) (header : FatHeader) (n : Nat) : Nat :=
  u16 image (512 * header.reservedSectors + 2 * n)

/-- The cluster has an entry: a sector of the table holds 256 of them. -/
def InTable (header : FatHeader) (n : Nat) : Prop := n < 256 * header.sectorsPerFat

instance (header : FatHeader) (n : Nat) : Decidable (InTable header n) :=
  inferInstanceAs (Decidable (n < 256 * header.sectorsPerFat))

/-- The entries of free and of bad clusters, and the end-of-chain markers. -/
def EndsChain (entry : Nat) : Prop := entry = 0 ∨ 0xFFF7 ≤ entry

instance (entry : Nat) : Decidable (EndsChain entry) :=
  inferInstanceAs (Decidable (entry = 0 ∨ 0xFFF7 ≤ entry))

/-- `k` links of the recorded chain lead from `c` to `c'`. -/
inductive ChainTo (image : Mem) (header : FatHeader) : Nat → Nat → Nat → Prop where
  | here (c : Nat) : ChainTo image header 0 c c
  | link {k c c' : Nat} (hin : InTable header c) (hlink : ¬ EndsChain (tableWord image header c))
      (hrest : ChainTo image header k (tableWord image header c) c') :
      ChainTo image header (k + 1) c c'

/-- A chain is recorded in the sectors of the table. -/
theorem ChainTo.congr {image image' : Mem} {header : FatHeader} {k c c' : Nat}
    (hc : ChainTo image header k c c')
    (h : ∀ x < 512 * (header.reservedSectors + header.sectorsPerFat), image' x = image x) :
    ChainTo image' header k c c' := by
  induction hc with
  | here c => exact ChainTo.here c
  | @link k c c' hin hlink hrest ih =>
    have hword : tableWord image' header c = tableWord image header c := by
      unfold InTable at hin
      exact u16_congr (h _ (by omega)) (h _ (by omega))
    rw [← hword] at hlink ih
    exact ChainTo.link hin hlink ih

/-- One of the first `k` entries of the recorded chain from `c` on ends it. -/
inductive ChainEnds (image : Mem) (header : FatHeader) : Nat → Nat → Prop where
  | here {k c : Nat} (hin : InTable header c) (hend : EndsChain (tableWord image header c)) :
      ChainEnds image header (k + 1) c
  | link {k c : Nat} (hin : InTable header c) (hlink : ¬ EndsChain (tableWord image header c))
      (hrest : ChainEnds image header k (tableWord image header c)) :
      ChainEnds image header (k + 1) c

/-! ## 2. The table, as it should be read -/

section

variable {s s' : Sys} {p : FatPrivate}

/-- The driver follows the recorded table: it reads its entries, goes along its chains, and fails
where these end. -/
structure FatRight (s : Sys) (p : FatPrivate) : Prop where
  entry : ∀ n, InTable p.header n → ∃ s',
    fat16GetFatEntry primaryDisk n s = .ok (tableWord s.ata.image p.header n : Int) s'
  reaches : ∀ c offset c', InTable p.header c → offset < 2 ^ 32 →
    ChainTo s.ata.image p.header (offset / fat16ClusterSize (s.disks primaryDisk) p) c c' →
    ∃ s', fat16GetClusterForOffset primaryDisk c offset s = .ok (c' : Int) s'
  ends : ∀ c offset, InTable p.header c → offset < 2 ^ 32 →
    ChainEnds s.ata.image p.header (offset / fat16ClusterSize (s.disks primaryDisk) p) c →
    ∃ code s', code < 0 ∧ fat16GetClusterForOffset primaryDisk c offset s = .ok code s'

/-- The driver can read the entry of a cluster, and takes it for what is recorded. -/
structure EntryRight (s : Sys) (p : FatPrivate) (n : Nat) : Prop where
  size : fat16ClusterSize (s.disks primaryDisk) p ≠ 0
  free : (freeBlocks s.arena.heap).card ≠ 0
  device : OnDevice s p.header n
  word : fatWord s.ata.image p.header n = tableWord s.ata.image p.header n
  ends : fat16IsEntryInvalid (tableWord s.ata.image p.header n) = true ↔
    EndsChain (tableWord s.ata.image p.header n)

/-- Reading on does not change that. -/
theorem EntryRight.reads {n : Nat} (h : EntryRight s p n) {T W : Set Nat} (hr : Reads T W s s')
    (hcard : (freeBlocks s.arena.heap).card ≤ (freeBlocks s'.arena.heap).card) :
    EntryRight s' p n := by
  have hfree := h.free
  refine ⟨?_, by omega, ?_, ?_, ?_⟩
  · rw [hr.disks]
    exact h.size
  · have hdev := h.device
    unfold OnDevice at hdev ⊢
    rwa [hr.sectors]
  · rw [hr.image]
    exact h.word
  · rw [hr.image]
    exact h.ends

theorem toUnsigned_natCast {n : Nat} (hn : n < 2 ^ 32) : toUnsigned (n : Int) = n := by
  unfold toUnsigned
  omega

theorem tableWord_lt (image : Mem) (header : FatHeader) (n : Nat) :
    tableWord image header n < 65536 := u16_lt _ _

/-- Such an entry is read as it is recorded. -/
theorem EntryRight.getFatEntry {n : Nat} (h : EntryRight s p n) (hk : KernelHeap s.arena)
    (hm : Mounted s p) : ∃ s',
      fat16GetFatEntry primaryDisk n s = .ok (tableWord s.ata.image p.header n : Int) s' ∧
      Reads ∅ stackRange s s' ∧
      (freeBlocks s.arena.heap).card ≤ (freeBlocks s'.arena.heap).card := by
  obtain ⟨e, s', hrun, rfl, hr, hcard, -⟩ := Runs.total (getFatEntry_runs hk hm n
    fun hbad => absurd ⟨h.free, h.device⟩ hbad)
  exact ⟨s', by rw [hrun, h.word], hr, hcard⟩

/-- What the walk does with an entry that is read as it is recorded. -/
theorem EntryRight.walk {n : Nat} (h : EntryRight s p n) (hk : KernelHeap s.arena)
    (hm : Mounted s p) (k : Nat) : ∃ s', Reads ∅ stackRange s s' ∧
      (freeBlocks s.arena.heap).card ≤ (freeBlocks s'.arena.heap).card ∧
      (EndsChain (tableWord s.ata.image p.header n) →
        fat16WalkClusters primaryDisk (k + 1) n s = .ok systemFail s') ∧
      (¬ EndsChain (tableWord s.ata.image p.header n) →
        fat16WalkClusters primaryDisk (k + 1) n s =
          fat16WalkClusters primaryDisk k (tableWord s.ata.image p.header n) s') := by
  obtain ⟨s1, hentry, h1, hcard1⟩ := h.getFatEntry hk hm
  have hends := h.ends
  have hlt := tableWord_lt s.ata.image p.header n
  refine ⟨s1, h1, hcard1, fun hend => ?_, fun hlink => ?_⟩
  · unfold fat16WalkClusters
    rw [bind_of_ok hentry, if_pos (hends.mpr hend)]
    rfl
  · rw [fat16WalkClusters, bind_of_ok hentry, if_neg (fun hbad => hlink (hends.mp hbad)),
      toUnsigned_natCast (by omega)]

/-! ## 3. When the two come to the same -/

/-- The walk goes along the recorded chain. -/
theorem walkClusters_chainTo {k c c' : Nat} {image : Mem}
    (hc : ChainTo image p.header k c c') (himage : s.ata.image = image) (hk : KernelHeap s.arena)
    (hm : Mounted s p) (h : ∀ n, InTable p.header n → EntryRight s p n) :
    ∃ s', fat16WalkClusters primaryDisk k c s = .ok (c' : Int) s' := by
  induction hc generalizing s with
  | here c => exact ⟨s, rfl⟩
  | @link k c c' hin hlink hrest ih =>
    subst himage
    obtain ⟨s1, h1, hcard1, -, hwalk⟩ := (h c hin).walk hk hm k
    obtain ⟨s', hs'⟩ := ih h1.image h1.kernel (h1.mounted hm) fun n hn => (h n hn).reads h1 hcard1
    exact ⟨s', (hwalk hlink).trans hs'⟩

/-- The walk fails where the recorded chain ends. -/
theorem walkClusters_chainEnds {k c : Nat} {image : Mem}
    (hc : ChainEnds image p.header k c) (himage : s.ata.image = image) (hk : KernelHeap s.arena)
    (hm : Mounted s p) (h : ∀ n, InTable p.header n → EntryRight s p n) :
    ∃ s', fat16WalkClusters primaryDisk k c s = .ok systemFail s' := by
  induction hc generalizing s with
  | @here k c hin hend =>
    subst himage
    obtain ⟨s1, -, -, hwalk, -⟩ := (h c hin).walk hk hm k
    exact ⟨s1, hwalk hend⟩
  | @link k c hin hlink hrest ih =>
    subst himage
    obtain ⟨s1, h1, hcard1, -, hwalk⟩ := (h c hin).walk hk hm k
    obtain ⟨s', hs'⟩ := ih h1.image h1.kernel (h1.mounted hm) fun n hn => (h n hn).reads h1 hcard1
    exact ⟨s', (hwalk hlink).trans hs'⟩

/-- `fat16_get_cluster_for_offset` walks over the clusters before the one of the offset. -/
theorem getClusterForOffset_run (hm : Mounted s p) (c offset : Nat) :
    fat16GetClusterForOffset primaryDisk c offset s =
      if fat16ClusterSize (s.disks primaryDisk) p = 0 then .error .fault s
      else fat16WalkClusters primaryDisk (offset / fat16ClusterSize (s.disks primaryDisk) p) c s := by
  unfold fat16GetClusterForOffset
  rw [bind_of_ok (diskOf_run s), bind_of_ok hm.fsPrivate_run]
  by_cases h0 : fat16ClusterSize (s.disks primaryDisk) p = 0
  · exact (congrFun (if_pos h0) s).trans (if_pos h0).symm
  · exact (congrFun (if_neg h0) s).trans (if_neg h0).symm

theorem clusterSize_ne_zero (hm : Mounted s p) {c offset : Nat} {r : Int}
    (h : fat16GetClusterForOffset primaryDisk c offset s = .ok r s') :
    fat16ClusterSize (s.disks primaryDisk) p ≠ 0 := by
  intro h0
  rw [getClusterForOffset_run hm, if_pos h0] at h
  cases h

/-- The clusters of a volume are shorter than `2 ^ 32` bytes. -/
theorem clusterSize_lt (s : Sys) (p : FatPrivate) :
    fat16ClusterSize (s.disks primaryDisk) p < 2 ^ 32 := Nat.mod_lt _ (by omega)

/-- One link is walked over with the entry that the driver reads. -/
theorem getClusterForOffset_one (hk : KernelHeap s.arena) (hm : Mounted s p) {c : Nat} {r : Int}
    (h : fat16GetClusterForOffset primaryDisk c (fat16ClusterSize (s.disks primaryDisk) p) s =
      .ok r s') :
    r = if fat16IsEntryInvalid (fatWord s.ata.image p.header c) = true then systemFail
      else (fatWord s.ata.image p.header c : Int) := by
  have hsize := clusterSize_ne_zero hm h
  rw [getClusterForOffset_run hm, if_neg hsize, Nat.div_self (Nat.pos_of_ne_zero hsize)] at h
  obtain ⟨e, s1, hentry, h⟩ := (bind_ok_iff _ _ _ _ _).mp h
  obtain ⟨rfl, -⟩ := Runs.value (getFatEntry_runs hk hm c fun _ _ => trivial) hentry
  have hlt : fatWord s.ata.image p.header c < 65536 := u16_lt _ _
  split at h
  · next hinvalid =>
    rw [if_pos hinvalid]
    exact ((pure_ok_iff _ _ _ _).mp h).1.symm
  · next hvalid =>
    have hword : fatWord s.ata.image p.header c < 2 ^ 32 := by omega
    rw [if_neg hvalid, ← toUnsigned_natCast hword]
    exact ((pure_ok_iff _ _ _ _).mp h).1.symm

/-- What a volume must be like if the driver follows its table: the first link of every chain shows
how each entry is read. -/
theorem FatRight.entryRight (h : FatRight s p) (hk : KernelHeap s.arena) (hm : Mounted s p) {n : Nat}
    (hin : InTable p.header n) : EntryRight s p n := by
  obtain ⟨s1, hentry⟩ := h.entry n hin
  obtain ⟨hword, -, -, hfree, hdevice⟩ :=
    Runs.value (getFatEntry_runs hk hm n fun _ _ => trivial) hentry
  have hword := Int.ofNat.inj hword.symm
  obtain ⟨s2, hzero⟩ := h.reaches n 0 n hin (by omega) (by
    rw [Nat.zero_div]
    exact ChainTo.here n)
  have hsize := clusterSize_ne_zero hm hzero
  have hself := Nat.div_self (Nat.pos_of_ne_zero hsize)
  refine ⟨hsize, hfree, hdevice, hword, fun hinvalid => ?_, fun hend => ?_⟩
  · by_contra hlink
    obtain ⟨s3, hone⟩ := h.reaches n _ _ hin (clusterSize_lt s p) (by
      rw [hself]
      exact ChainTo.link hin hlink (ChainTo.here _))
    have hcode := getClusterForOffset_one hk hm hone
    rw [hword, if_pos hinvalid] at hcode
    unfold systemFail at hcode
    omega
  · obtain ⟨code, s3, hneg, hone⟩ := h.ends n _ hin (clusterSize_lt s p) (by
      rw [hself]
      exact ChainEnds.here hin hend)
    have hcode := getClusterForOffset_one hk hm hone
    by_contra hvalid
    rw [hword, if_neg hvalid] at hcode
    omega

/-- **The driver follows the table of a volume exactly if it takes every entry for what is recorded**:
if it finds the same word for each cluster of the table, and if the words that it stops at are those
that end a chain. -/
theorem fatRight_iff (hk : KernelHeap s.arena) (hm : Mounted s p) :
    FatRight s p ↔ ∀ n, InTable p.header n → EntryRight s p n := by
  refine ⟨fun h n hin => h.entryRight hk hm hin, fun h => ⟨fun n hin => ?_, ?_, ?_⟩⟩
  · obtain ⟨s1, hentry, -⟩ := (h n hin).getFatEntry hk hm
    exact ⟨s1, hentry⟩
  · intro c offset c' hin _ hc
    rw [getClusterForOffset_run hm, if_neg (h c hin).size]
    exact walkClusters_chainTo hc rfl hk hm h
  · intro c offset hin _ hc
    rw [getClusterForOffset_run hm, if_neg (h c hin).size]
    obtain ⟨s1, hwalk⟩ := walkClusters_chainEnds hc rfl hk hm h
    exact ⟨systemFail, s1, by decide, hwalk⟩

end

/-- On a mounted blank volume both sides can be decided. -/
theorem fatRight_iff_blank : ∃ (s : Sys) (p : FatPrivate),
    fat16Resolve primaryDisk (blankSys 0x10000000 [97]) = .ok ok s ∧
    (FatRight s p ↔ ∀ n, InTable p.header n → EntryRight s p n) := by
  obtain ⟨s, q, hmount, hb, -, -, -⟩ := blank_mounts (Nat.le_refl 0x10000000) [97]
  exact ⟨s, q, hmount, fatRight_iff hb.kernel hb.mounted⟩

/-- **The table of a blank volume is not read as it is recorded**: with one reserved sector, the entry
of cluster 6 is looked for in the boot sector. -/
theorem blank_fat_not_right : ¬ ∀ (s0 s : Sys) (p : FatPrivate), KernelHeap s0.arena →
    (s0.disks primaryDisk).id = 0 → (s0.disks primaryDisk).sectorSize = 512 →
    fat16Resolve primaryDisk s0 = .ok ok s → Mounted s p → FatRight s p := by
  intro hclaim
  obtain ⟨s, q, hmount, hb, hacc, hata, -⟩ := blank_mounts (Nat.le_refl 0x10000000) [97]
  have hright := hclaim (blankSys 0x10000000 [97]) s q (freshKernel_kernelHeap _) rfl rfl hmount
    hb.mounted
  have hhead := hacc.blank_header
  have hin : InTable q.header 6 := by
    rw [hhead]
    decide
  have hword := (hright.entryRight hb.kernel hb.mounted hin).word
  rw [hata, hhead] at hword
  change u16 (fun x => blankBootSector.getD x 0) 12 = u16 (fun x => blankBootSector.getD x 0) 524
    at hword
  exact absurd hword (by decide)

end KokoOs
