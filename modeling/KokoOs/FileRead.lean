/-
# Reading elements of a file

`fat16_read` reads element after element, each at its own offset behind the position and with a read
of its own.  What such a call delivers depends on the disk, the entry of the file and the position
alone, as far as every byte lies in the sectors that its request asks for (`fsRead_bytes`); beyond
them it delivers what memory holds behind the local buffer.

The loop over the elements does not fail (`readLoop_bytes`): a chain that is too short is not
noticed, and a read that the stream refuses would be one of no bytes.  And `fs_read` would not say
so if it did, since it drops the result.
-/
import KokoOs.Fat16Read
import KokoOs.FileSpec

namespace KokoOs

open Bytes Prog

/-! ## 1. Element after element -/

/-- The offset of element `k`. -/
def elementOffset (pos size k : Nat) : Nat := (pos + k * size) % 2 ^ 32

theorem elementOffset_zero {pos : Nat} (hpos : pos < 2 ^ 32) (size : Nat) :
    elementOffset pos size 0 = pos := by
  unfold elementOffset
  rw [Nat.zero_mul, Nat.add_zero, Nat.mod_eq_of_lt hpos]

theorem elementOffset_succ (pos size k : Nat) :
    elementOffset ((pos + size) % 2 ^ 32) size k = elementOffset pos size (k + 1) :=
  offset_succ pos size k

/-- Where a read looks for byte `i` of element `k`. -/
def elementPos (image : Mem) (p : FatPrivate) (clusterSize c0 pos size k i : Nat) : Nat :=
  requestPos image p clusterSize c0 (elementOffset pos size k) (i / clusterSize) + i % clusterSize

/-- Every byte of the elements lies in the sectors that its request asks for. -/
def ElementsInSectors (clusterSize pos size nmemb : Nat) : Prop :=
  ∀ k < nmemb, ∀ i < size, InSectors clusterSize (elementOffset pos size k) size i

instance (clusterSize pos size nmemb : Nat) : Decidable
    (ElementsInSectors clusterSize pos size nmemb) :=
  inferInstanceAs (Decidable (∀ k < nmemb, ∀ i < size, _ < _))

/-- The two halves of a first cluster have 16 bits each. -/
theorem firstCluster_lt (item : FatDirectoryItem) : fat16GetFirstCluster item < 2 ^ 16 :=
  Nat.or_lt_two_pow (u16_lt _ _) (u16_lt _ _)

section

variable {s s' : Sys} {p : FatPrivate} {item : FatDirectoryItem} {size : Nat} {code : Int}

/-- A loop that returns has found that clusters have bytes. -/
theorem readLoop_clusterSize (hspc : p.header.sectorsPerCluster < 256) (hk : KernelHeap s.arena)
    (hm : Mounted s p) {nmemb pos out : Nat} (h0 : 0 < nmemb)
    (h : fat16ReadLoop primaryDisk item size nmemb pos out s = .ok code s') :
    0 < fat16ClusterSize (s.disks primaryDisk) p := by
  have hcluster := firstCluster_lt item
  obtain ⟨k, rfl⟩ := Nat.exists_eq_succ_of_ne_zero (Nat.pos_iff_ne_zero.mp h0)
  obtain ⟨res, s1, hread, -⟩ := (bind_ok_iff _ _ _ _ _).mp h
  obtain ⟨q, s2, hq, hread⟩ := (bind_ok_iff _ _ _ _ _).mp hread
  obtain ⟨rfl, rfl⟩ := Runs.value (hm.fsPrivate_runs (Q := fun q s' => p = q ∧ s = s') ⟨rfl, rfl⟩) hq
  obtain ⟨log, hlog⟩ := read_ok_iff.mp hread
  exact Nat.pos_of_ne_zero (Runs.value (readLogged_runs hspc hk hm hm.clusterStream (by omega))
    hlog).size

/-- **The loop over the elements** does not fail, and every byte of an element that lies in the
sectors asked for is the one that is looked for. -/
theorem readLoop_bytes (hspc : p.header.sectorsPerCluster < 256) (hsize : 0 < size) :
    ∀ {nmemb pos out : Nat} {s : Sys}, KernelHeap s.arena → Mounted s p → pos < 2 ^ 32 →
    CallersBytes s.arena out (nmemb * size) →
    fat16ReadLoop primaryDisk item size nmemb pos out s = .ok code s' →
    code = ok ∧ Transfers (readRange out (nmemb * size)) s s' ∧
      ∀ k < nmemb, ∀ i < size,
        InSectors (fat16ClusterSize (s.disks primaryDisk) p) (elementOffset pos size k) size i →
        s'.arena.mem (out + (k * size + i)) = s.ata.image (elementPos s.ata.image p
          (fat16ClusterSize (s.disks primaryDisk) p) (fat16GetFirstCluster item) pos size k i)
  | 0, _, _, s, hk, _, _, _, h => by
    obtain ⟨rfl, rfl⟩ := (pure_ok_iff _ _ _ _).mp h
    exact ⟨rfl, Transfers.refl hk _, fun k hk => absurd hk (Nat.not_lt_zero k)⟩
  | nmemb + 1, pos, out, s, hk, hm, hpos, hown, h => by
    rw [Nat.succ_mul] at hown ⊢
    obtain ⟨res, s1, hread, h⟩ := (bind_ok_iff _ _ _ _ _).mp h
    have hcluster := firstCluster_lt item
    have hown1 : CallersBytes s.arena out size := by
      have hpart := hown.part (k := 0) (n := size) (by omega)
      rwa [Nat.add_zero] at hpart
    obtain ⟨rfl, h1, hC, hbytes⟩ := readInternal_bytes hk hm hspc (by omega) hpos hsize hown1 hread
    rw [if_neg (by simp)] at h
    have hown2 : CallersBytes s1.arena (out + size) (nmemb * size) :=
      (hown.part (k := size) (n := nmemb * size) (by omega)).reads h1
    have hbehind : ∀ i < size, out + i ∉ readRange (out + size) (nmemb * size) := by
      rintro i hi (hstack | hrange)
      · exact hown1.off (out + i) (Set.mem_Ico.mpr ⟨by omega, by omega⟩) hstack
      · have := Set.mem_Ico.mp hrange
        omega
    obtain ⟨hcode, h2, hrest⟩ : code = ok ∧
        Transfers (readRange (out + size) (nmemb * size)) s1 s' ∧ ∀ k < nmemb, ∀ i < size,
        InSectors (fat16ClusterSize (s.disks primaryDisk) p) (elementOffset pos size (k + 1)) size
          i → s'.arena.mem (out + size + (k * size + i)) = s.ata.image (elementPos s.ata.image p
            (fat16ClusterSize (s.disks primaryDisk) p) (fat16GetFirstCluster item) pos size (k + 1)
            i) := by
      cases nmemb with
      | zero =>
        obtain ⟨rfl, rfl⟩ := (pure_ok_iff _ _ _ _).mp h
        exact ⟨rfl, Transfers.refl h1.kernel _, fun k hk => absurd hk (Nat.not_lt_zero k)⟩
      | succ nmemb =>
        have hfits := hown2.fits
        rw [Nat.succ_mul] at hfits
        have hout : out + size < 2 ^ 32 := by omega
        rw [Nat.mod_eq_of_lt hout] at h
        obtain ⟨hcode, h2, hrest⟩ := readLoop_bytes hspc hsize h1.kernel (h1.mounted hm)
          (Nat.mod_lt _ (by omega)) hown2 h
        refine ⟨hcode, h2, fun k hk i hi hin => ?_⟩
        rw [← elementOffset_succ] at hin
        rw [hrest k hk i hi (by rw [h1.still.disks]; exact hin), h1.image, h1.still.disks]
        unfold elementPos
        rw [elementOffset_succ]
    refine ⟨hcode, (h1.mono (readRange_mono (by omega) (by omega))).trans
      (h2.mono (readRange_mono (by omega) (by omega))), fun k hk i hi hin => ?_⟩
    cases k with
    | zero =>
      rw [elementOffset_zero hpos] at hin
      unfold elementPos
      rw [Nat.zero_mul, Nat.zero_add, elementOffset_zero hpos,
        h2.mem (hown1.reads h1).owned hi (hbehind i hi)]
      exact hbytes i hi hin
    | succ k =>
      rw [show out + ((k + 1) * size + i) = out + size + (k * size + i) by rw [Nat.succ_mul]; omega]
      exact hrest k (by omega) i hi hin

end

/-! ## 2. The call -/

section

variable {f f' : FileState FatFileDescriptor} {p : FatPrivate} {out fd size nmemb : Nat} {code : Int}
  {desc : FileDescriptor FatFileDescriptor}

/-- What a read of the elements looks for, in the order of the caller's bytes. -/
def readBytes (image : Mem) (p : FatPrivate) (clusterSize : Nat) (data : FatFileDescriptor)
    (size nmemb : Nat) : List UInt8 :=
  (List.range (nmemb * size)).map fun i => image (elementPos image p clusterSize
    (fat16GetFirstCluster data.item.item) data.pos size (i / size) (i % size))

/-- A call that reads has run the loop, and nothing has happened to the table. -/
theorem fsRead_loop (hfind : fsFindFileDescriptor f fd = some desc) (hdisk : desc.disk = primaryDisk)
    (hfile : desc.privateData.item.type = .file) (hsize : 0 < size) (hnmemb : 0 < nmemb)
    (h : fsRead fileSystemOf out fd size nmemb f = .ok code f') :
    code = ok ∧ f'.fileSystems = f.fileSystems ∧ f'.fileDescriptors = f.fileDescriptors ∧
      ∃ res, fat16ReadLoop primaryDisk desc.privateData.item.item size nmemb desc.privateData.pos out
        f.sys = .ok res f'.sys := by
  obtain ⟨hfd, -, hslot⟩ := fsFind_slot hfind
  rcases fsRead_ok h with ⟨hbad, -, -⟩ | ⟨-, ⟨hnone, -⟩ | ⟨d, res, data, s, hd, hread, rfl, rfl⟩⟩
  · omega
  · rw [hfind] at hnone
    cases hnone
  · obtain rfl := Option.some_inj.mp (hfind.symm.trans hd)
    rw [hdisk] at hread
    cases hfs : desc.fs
    rw [hfs] at hread
    obtain ⟨res', s1, hloop, hpure⟩ := (bind_ok_iff _ _ _ _ _).mp hread
    obtain ⟨hpair, rfl⟩ := (pure_ok_iff _ _ _ _).mp hpure
    obtain ⟨-, rfl⟩ := Prod.mk.inj hpair
    unfold fat16Read at hloop
    rw [if_neg (not_not.mpr hfile)] at hloop
    refine ⟨rfl, rfl, ?_, res', hloop⟩
    dsimp only
    rw [← hslot, Function.update_eq_self]

/-- **The bytes that `fs_read` delivers** are those that are looked for, if they lie in the sectors that
are asked for. -/
theorem fsRead_bytes (hk : KernelHeap f.sys.arena) (hm : Mounted f.sys p)
    (hspc : p.header.sectorsPerCluster < 256) (hfind : fsFindFileDescriptor f fd = some desc)
    (hdisk : desc.disk = primaryDisk) (hfile : desc.privateData.item.type = .file)
    (hpos : desc.privateData.pos < 2 ^ 32) (hsize : 0 < size) (hnmemb : 0 < nmemb)
    (hown : CallersBytes f.sys.arena out (nmemb * size))
    (hin : 0 < fat16ClusterSize (f.sys.disks primaryDisk) p →
      ElementsInSectors (fat16ClusterSize (f.sys.disks primaryDisk) p) desc.privateData.pos size nmemb)
    (h : fsRead fileSystemOf out fd size nmemb f = .ok code f') :
    code = ok ∧ f'.fileDescriptors = f.fileDescriptors ∧
      Transfers (readRange out (nmemb * size)) f.sys f'.sys ∧
      slice f'.sys.arena.mem out (nmemb * size) = readBytes f.sys.ata.image p
        (fat16ClusterSize (f.sys.disks primaryDisk) p) desc.privateData size nmemb := by
  obtain ⟨rfl, -, htable, res, hloop⟩ := fsRead_loop hfind hdisk hfile hsize hnmemb h
  obtain ⟨-, ht, hbytes⟩ := readLoop_bytes hspc hsize hk hm hpos hown hloop
  have hin := hin (readLoop_clusterSize hspc hk hm hnmemb hloop)
  refine ⟨rfl, htable, ht, ?_⟩
  unfold slice readBytes
  refine List.map_congr_left fun i hi => ?_
  have hdiv := Nat.div_lt_of_lt_mul (Nat.mul_comm nmemb size ▸ List.mem_range.mp hi)
  have hmod := Nat.mod_lt i hsize
  rw [← hbytes _ hdiv _ hmod (hin _ hdiv _ hmod), Nat.div_add_mod' i size]

end

end KokoOs
