/-
# The geometry of a volume

The driver counts the sectors of the root directory twice: rounded up, into a local that is not used,
and rounded down, where the clusters begin.  So the first cluster overlaps the end of a root directory
that does not fill its last sector; and a cluster of no sectors is accepted.  All other ranges of a
volume are apart (`geometry_iff`).

The ranges are sets of bytes: the reserved sectors, the copies of the table, the entries of the root
directory, and the bytes that the driver takes for those of a cluster, as it computes them, in 32 bits.
Nothing of a volume of less than 4 GiB is out of their reach (`SmallVolume.clusterRange_eq`), so what
remains is a comparison of numbers of sectors.

A volume whose clusters have no sectors is accepted, and every computation with them divides by zero
(`empty_clusters_accepted`).
-/
import KokoOs.Fat16Search

namespace KokoOs

open Bytes Prog

/-! ## 1. The ranges -/

/-- Two sets of bytes have nothing in common. -/
def Apart (X Y : Set Nat) : Prop := ∀ x ∈ X, x ∉ Y

/-- The bytes that the driver takes for those of a cluster. -/
def clusterRange (d : Disk) (p : FatPrivate) (cluster : Nat) : Set Nat :=
  let start := fat16SectorToAbsolutePos d (fat16ClusterToSector p cluster)
  Set.Ico start (start + fat16ClusterSize d p)

/-- The reserved sectors. -/
def reservedRange (header : FatHeader) : Set Nat := Set.Ico 0 (512 * header.reservedSectors)

/-- Copy `i` of the file allocation table. -/
def tableRange (header : FatHeader) (i : Nat) : Set Nat :=
  Set.Ico (512 * (header.reservedSectors + i * header.sectorsPerFat))
    (512 * (header.reservedSectors + (i + 1) * header.sectorsPerFat))

/-- The entries of the root directory. -/
def rootRange (header : FatHeader) : Set Nat :=
  Set.Ico (rootPos header) (rootPos header + 32 * header.rootDirEntries)

/-- Clusters have bytes, and those of the volume overlap neither each other nor what comes before
them. -/
structure Geometry (image : Mem) (d : Disk) (p : FatPrivate) : Prop where
  size : fat16ClusterSize d p ≠ 0
  clusters : ∀ a b, InVolume image p.header a → InVolume image p.header b → a ≠ b →
    Apart (clusterRange d p a) (clusterRange d p b)
  reserved : ∀ a, InVolume image p.header a → Apart (clusterRange d p a) (reservedRange p.header)
  tables : ∀ a i, InVolume image p.header a → i < p.header.fatCopies →
    Apart (clusterRange d p a) (tableRange p.header i)
  root : ∀ a, InVolume image p.header a → Apart (clusterRange d p a) (rootRange p.header)

/-- What is behind is apart. -/
theorem apart_of_le {a b c d : Nat} (h : a ≤ d) : Apart (Set.Ico d b) (Set.Ico c a) := by
  intro x hx hx'
  have h1 := (Set.mem_Ico.mp hx).1
  have h2 := (Set.mem_Ico.mp hx').2
  omega

theorem Apart.symm {X Y : Set Nat} (h : Apart X Y) : Apart Y X := fun x hx hx' => h x hx' hx

/-! ## 2. Where the clusters are -/

section

variable {image : Mem} {d : Disk} {p : FatPrivate} {a b : Nat}

/-- The first sector of a cluster, as far as it is computed without overflow. -/
def clusterSector (p : FatPrivate) (cluster : Nat) : Nat :=
  p.rootDirectory.endingSectorPos + (cluster - 2) * p.header.sectorsPerCluster

/-- A volume of less than 4 GiB that was read with sectors of 512 bytes. -/
structure SmallVolume (image : Mem) (d : Disk) (p : FatPrivate) : Prop where
  sectorSize : d.sectorSize = 512
  small : 512 * volumeSectors image < 2 ^ 32
  byte : p.header.sectorsPerCluster < 256
  ending : p.rootDirectory.endingSectorPos =
    fat16RootDirectorySector p.header + p.header.rootDirEntries * 32 / 512

theorem SmallVolume.clusterSize_eq (h : SmallVolume image d p) :
    fat16ClusterSize d p = 512 * p.header.sectorsPerCluster := by
  have hbyte := h.byte
  unfold fat16ClusterSize fat16SectorToAbsolutePos
  rw [h.sectorSize, Nat.mod_eq_of_lt (by omega), Nat.mul_comm]

/-- The driver begins the clusters where they begin, or one sector before. -/
theorem SmallVolume.ending_le (h : SmallVolume image d p) :
    p.rootDirectory.endingSectorPos ≤ dataSector p.header := by
  have hend := h.ending
  unfold dataSector
  omega

/-- **Nothing overflows.** -/
theorem SmallVolume.clusterRange_eq (h : SmallVolume image d p) (ha : InVolume image p.header a) :
    clusterRange d p a = Set.Ico (512 * clusterSector p a)
      (512 * (clusterSector p a + p.header.sectorsPerCluster)) := by
  obtain ⟨k, rfl⟩ := Nat.exists_eq_add_of_le' ha.1
  have hin := ha.2
  have hsmall := h.small
  have hend := h.ending_le
  have hlast : k + 2 - 1 = k + 1 := rfl
  rw [hlast, Nat.succ_mul] at hin
  have hsector : fat16ClusterToSector p (k + 2) = clusterSector p (k + 2) := by
    unfold clusterSector
    rw [fat16ClusterToSector_add_two, Nat.add_sub_cancel]
    exact Nat.mod_eq_of_lt (by omega)
  have hpos : fat16SectorToAbsolutePos d (clusterSector p (k + 2)) =
      512 * clusterSector p (k + 2) := by
    unfold fat16SectorToAbsolutePos clusterSector
    rw [h.sectorSize, Nat.add_sub_cancel, Nat.mod_eq_of_lt (by omega), Nat.mul_comm]
  unfold clusterRange
  dsimp only
  rw [hsector, hpos, h.clusterSize_eq, Nat.mul_add]

/-- A cluster ends where the next one begins. -/
theorem clusterSector_step (ha : 2 ≤ a) (hab : a < b) :
    clusterSector p a + p.header.sectorsPerCluster ≤ clusterSector p b := by
  have hmul : (a - 2 + 1) * p.header.sectorsPerCluster ≤ (b - 2) * p.header.sectorsPerCluster :=
    Nat.mul_le_mul_right _ (by omega)
  rw [Nat.succ_mul] at hmul
  unfold clusterSector
  omega

/-- No byte is of two clusters. -/
theorem SmallVolume.clusters_apart (h : SmallVolume image d p) (ha : InVolume image p.header a)
    (hb : InVolume image p.header b) (hne : a ≠ b) :
    Apart (clusterRange d p a) (clusterRange d p b) := by
  rw [h.clusterRange_eq ha, h.clusterRange_eq hb]
  rcases Nat.lt_or_gt_of_ne hne with hab | hab
  · exact (apart_of_le (Nat.mul_le_mul_left _ (clusterSector_step ha.1 hab))).symm
  · exact apart_of_le (Nat.mul_le_mul_left _ (clusterSector_step hb.1 hab))

/-- What ends before the root directory is apart from the clusters. -/
theorem SmallVolume.apart_of_le_root (h : SmallVolume image d p) (ha : InVolume image p.header a)
    {x y : Nat} (hy : y ≤ fat16RootDirectorySector p.header) :
    Apart (clusterRange d p a) (Set.Ico x (512 * y)) := by
  have hend := h.ending
  rw [h.clusterRange_eq ha]
  refine apart_of_le (Nat.mul_le_mul_left _ ?_)
  unfold clusterSector
  omega

theorem SmallVolume.reserved_apart (h : SmallVolume image d p) (ha : InVolume image p.header a) :
    Apart (clusterRange d p a) (reservedRange p.header) :=
  h.apart_of_le_root ha (Nat.le_add_left _ _)

theorem SmallVolume.table_apart (h : SmallVolume image d p) (ha : InVolume image p.header a) {i : Nat}
    (hi : i < p.header.fatCopies) : Apart (clusterRange d p a) (tableRange p.header i) := by
  refine h.apart_of_le_root ha ?_
  have hmul : (i + 1) * p.header.sectorsPerFat ≤ p.header.fatCopies * p.header.sectorsPerFat :=
    Nat.mul_le_mul_right _ hi
  unfold fat16RootDirectorySector
  omega

/-- A root directory that fills its last sector is apart from the clusters. -/
theorem SmallVolume.root_apart (h : SmallVolume image d p) (ha : InVolume image p.header a)
    (hentries : p.header.rootDirEntries % 16 = 0) :
    Apart (clusterRange d p a) (rootRange p.header) := by
  have hend := h.ending
  rw [h.clusterRange_eq ha]
  refine apart_of_le ?_
  unfold rootPos clusterSector
  omega

/-- A root directory that does not fill its last sector ends inside the first cluster. -/
theorem SmallVolume.root_overlaps (h : SmallVolume image d p)
    (hspc : p.header.sectorsPerCluster ≠ 0) (hentries : p.header.rootDirEntries % 16 ≠ 0)
    (ha : InVolume image p.header 2) : ¬ Apart (clusterRange d p 2) (rootRange p.header) := by
  have hend := h.ending
  rw [h.clusterRange_eq ha]
  intro hapart
  have hsector : clusterSector p 2 = p.rootDirectory.endingSectorPos := by
    unfold clusterSector
    rw [Nat.sub_self, Nat.zero_mul, Nat.add_zero]
  rw [hsector] at hapart
  refine hapart (512 * p.rootDirectory.endingSectorPos) (Set.mem_Ico.mpr (by omega))
    (Set.mem_Ico.mpr ?_)
  unfold rootPos
  omega

/-! ## 3. When the geometry is right -/

/-- A volume with a cluster has the first one. -/
theorem InVolume.first (ha : InVolume image p.header a) : InVolume image p.header 2 := by
  refine ⟨Nat.le_refl _, Nat.le_trans ?_ ha.2⟩
  exact Nat.add_le_add_left (Nat.mul_le_mul_right _ (Nat.sub_le_sub_right ha.1 1)) _

theorem SmallVolume.geometry_right_iff (h : SmallVolume image d p) : Geometry image d p ↔
    p.header.sectorsPerCluster ≠ 0 ∧
      (p.header.rootDirEntries % 16 = 0 ∨ ¬ InVolume image p.header 2) := by
  constructor
  · intro hg
    have hspc : p.header.sectorsPerCluster ≠ 0 := by
      intro h0
      exact hg.size (by rw [h.clusterSize_eq, h0])
    refine ⟨hspc, ?_⟩
    by_contra hnot
    obtain ⟨hentries, hin⟩ := not_or.mp hnot
    exact h.root_overlaps hspc hentries (not_not.mp hin) (hg.root 2 (not_not.mp hin))
  · rintro ⟨hspc, hroot⟩
    refine ⟨?_, fun a b ha hb hne => h.clusters_apart ha hb hne, fun a ha => h.reserved_apart ha,
      fun a i ha hi => h.table_apart ha hi, fun a ha => ?_⟩
    · rw [h.clusterSize_eq]
      exact Nat.mul_ne_zero (by decide) hspc
    · exact h.root_apart ha (hroot.resolve_right fun hno => hno ha.first)

end

/-- **The clusters of an accepted volume of less than 4 GiB have bytes and are apart from everything if
and only if they are not empty, and the root directory fills its last sector or there is no
cluster.** -/
theorem geometry_iff {s0 s : Sys} (hk : KernelHeap s0.arena) (hid : (s0.disks primaryDisk).id = 0)
    (hsector : (s0.disks primaryDisk).sectorSize = 512)
    (haccepted : fat16Resolve primaryDisk s0 = .ok ok s)
    (hsmall : 512 * volumeSectors s0.ata.image < 2 ^ 32) :
    ∃ p, (s.disks primaryDisk).fsPrivate = some p ∧ p.header = volumeHeader s0 ∧
      (Geometry s0.ata.image (s.disks primaryDisk) p ↔
        (volumeHeader s0).sectorsPerCluster ≠ 0 ∧
          ((volumeHeader s0).rootDirEntries % 16 = 0 ∨
            ¬ InVolume s0.ata.image (volumeHeader s0) 2)) := by
  obtain ⟨-, p, hm, hacc, -⟩ :=
    Runs.value (fat16Resolve_runs hk hid hsector fun _ _ => trivial) haccepted
  have hvolume : SmallVolume s0.ata.image (s.disks primaryDisk) p :=
    ⟨hm.sectorSize, hsmall, by rw [hacc.header]; exact UInt8.toNat_lt _,
      by rw [hacc.ending, hacc.header]⟩
  exact ⟨p, hm.priv, hacc.header, hacc.header ▸ hvolume.geometry_right_iff⟩

/-- On the small empty volume it is right. -/
theorem geometry_blank : ∃ s p, fat16Resolve primaryDisk (blankSys 0x10000000 [97]) = .ok ok s ∧
    (s.disks primaryDisk).fsPrivate = some p ∧
    Geometry (blankSys 0x10000000 [97]).ata.image (s.disks primaryDisk) p := by
  obtain ⟨s, q, hrun, -⟩ := blank_mounts (Nat.le_refl 0x10000000) [97]
  have hhead := blankSys_header 0x10000000 [97]
  have hsmall : 512 * volumeSectors (blankSys 0x10000000 [97]).ata.image < 2 ^ 32 := by
    change 512 * volumeSectors (fun x => blankBootSector.getD x 0) < 2 ^ 32
    decide
  obtain ⟨p, hp, -, hiff⟩ :=
    geometry_iff (freshKernel_kernelHeap _) rfl rfl hrun hsmall
  exact ⟨s, p, hrun, hp, hiff.mpr (by rw [hhead]; exact ⟨by decide, Or.inl (by decide)⟩)⟩

/-- The small empty volume, with clusters of no sectors. -/
def noClusterSys : Sys where
  arena := freshKernel fun _ => 0
  ata := { sectors := 100, image := fun x => (blankBootSector.set 13 0).getD x 0 }
  disks := fun _ => { id := 0, type := 0, sectorSize := 512, fs := none, fsPrivate := none }
  streams := fun _ => { pos := 0, disk := primaryDisk }

theorem noClusterSys_header : volumeHeader noClusterSys = ⟨0, 1, 2, 16, 1, 100, 41⟩ := by
  change FatHeader.read (fun x => (blankBootSector.set 13 0).getD x 0) 0 = _
  decide

/-- **A volume with clusters of no sectors is accepted**, and every computation with its clusters divides by
zero. -/
theorem empty_clusters_accepted : ¬ ∀ s0 s : Sys, KernelHeap s0.arena →
    (s0.disks primaryDisk).id = 0 → (s0.disks primaryDisk).sectorSize = 512 →
    fat16Resolve primaryDisk s0 = .ok ok s → 512 * volumeSectors s0.ata.image < 2 ^ 32 →
    ∃ p, (s.disks primaryDisk).fsPrivate = some p ∧
      Geometry s0.ata.image (s.disks primaryDisk) p := by
  intro hall
  have hhead := noClusterSys_header
  have hblank : Blank noClusterSys := by
    have hcard : (freeBlocks noClusterSys.arena.heap).card = 25600 := freshKernel_free _
    refine ⟨by omega, by rw [hhead], by rw [hhead], ?_, ?_, ?_⟩
    · rw [hhead]
      decide
    · rw [hhead]
      exact (by decide : 3 < 100)
    · rw [hhead]
      exact (by decide : (blankBootSector.set 13 0).getD 1536 0 = 0)
  obtain ⟨s, q, hrun, hm, hacc, -⟩ := hblank.mountable.mounts (freshKernel_kernelHeap _) rfl rfl
  have hsmall : 512 * volumeSectors noClusterSys.ata.image < 2 ^ 32 := by
    change 512 * volumeSectors (fun x => (blankBootSector.set 13 0).getD x 0) < 2 ^ 32
    decide
  obtain ⟨p, hp, hg⟩ := hall noClusterSys s (freshKernel_kernelHeap _) rfl rfl hrun hsmall
  obtain rfl : q = p := Option.some.inj (hm.priv.symm.trans hp)
  refine hg.size ?_
  unfold fat16ClusterSize fat16SectorToAbsolutePos
  rw [hacc.header, hhead, Nat.zero_mul, Nat.zero_mod]

end KokoOs
