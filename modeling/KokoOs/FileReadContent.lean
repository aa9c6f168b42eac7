/-
# What a read of a file delivers

`fs_read` delivers the content of the file from the position on if every request of it begins where
the chain has its first byte, stays on one stretch of the disk and lies in the sectors that it asks
for (`fsRead_content`, `LooksRight`).  It answers `OK` in any case, so a read that the driver fails
would be one more way to be wrong; but within these conditions there is none.

Within the first cluster only the last of the three is in question (`LooksRight.of_first_cluster`),
and it does fail: two bytes at byte 511 of a file are one byte of the file and one of the heap
(`read_crosses_sector`).
-/
import KokoOs.FileContent
import KokoOs.FileIndependent

namespace KokoOs

open Bytes Prog

/-! ## 1. What is wanted, and where the driver looks -/

/-- The bytes of the content from `pos` on. -/
def contentAt (image : Mem) (p : FatPrivate) (clusterSize : Nat) (chain : Nat → Nat) (pos n : Nat) :
    List UInt8 :=
  (List.range n).map fun i => image (fileByte p clusterSize chain (pos + i))

/-- A live descriptor of a file whose chain is recorded as far as its size. -/
structure ReadFile (f : FileState FatFileDescriptor) (p : FatPrivate) (fd : Nat)
    (desc : FileDescriptor FatFileDescriptor) (chain : Nat → Nat) : Prop where
  live : LiveRegular f fd desc
  links : RecordedAs f.sys.ata.image p (fat16ClusterSize (f.sys.disks primaryDisk) p)
    desc.privateData.item.item chain

/-- A read that returns `OK` has delivered the content from the position on, and one that the driver
fails does not return `OK`. -/
structure ReadsContent (f : FileState FatFileDescriptor) (p : FatPrivate) (fd : Nat)
    (desc : FileDescriptor FatFileDescriptor) (chain : Nat → Nat) (out size nmemb : Nat) : Prop where
  bytes : ∀ f', fsRead fileSystemOf out fd size nmemb f = .ok ok f' →
    slice f'.sys.arena.mem out (nmemb * size) = contentAt f.sys.ata.image p
      (fat16ClusterSize (f.sys.disks primaryDisk) p) chain desc.privateData.pos (nmemb * size)
  reports : ∀ res s', fat16Read desc.disk out desc.privateData size nmemb f.sys = .ok res s' →
    res ≠ ok → ∀ code f', fsRead fileSystemOf out fd size nmemb f = .ok code f' → code ≠ ok

/-- The requests of a read look for the bytes of the content: each begins where its first byte is, its
bytes lie one behind the other on the disk, and they are in the sectors that it asks for. -/
structure LooksRight (image : Mem) (p : FatPrivate) (clusterSize : Nat) (data : FatFileDescriptor)
    (chain : Nat → Nat) (size nmemb : Nat) : Prop where
  begins : ∀ k < nmemb, ∀ j, j * clusterSize < size →
    requestPos image p clusterSize (fat16GetFirstCluster data.item.item)
      (elementOffset data.pos size k) j =
    fileByte p clusterSize chain (data.pos + k * size + j * clusterSize)
  contiguous : ∀ k < nmemb, ∀ i < size, fileByte p clusterSize chain (data.pos + k * size + i) =
    fileByte p clusterSize chain (data.pos + k * size + i / clusterSize * clusterSize) + i % clusterSize
  sectors : ElementsInSectors clusterSize data.pos size nmemb

section

variable {f f' : FileState FatFileDescriptor} {p : FatPrivate} {fd size nmemb out : Nat}
  {desc : FileDescriptor FatFileDescriptor} {chain : Nat → Nat}

/-- What a read finds whose requests look for the bytes of the content. -/
theorem LooksRight.readBytes_eq {image : Mem} {C : Nat} {data : FatFileDescriptor}
    (h : LooksRight image p C data chain size nmemb) (h0 : 0 < size) :
    readBytes image p C data size nmemb = contentAt image p C chain data.pos (nmemb * size) := by
  unfold readBytes contentAt
  refine List.map_congr_left fun i hi => ?_
  have hdiv := Nat.div_lt_of_lt_mul (Nat.mul_comm nmemb size ▸ List.mem_range.mp hi)
  have hmod := Nat.mod_lt i h0
  have hle := Nat.div_mul_le_self (i % size) C
  have hsum := Nat.div_add_mod' i size
  unfold elementPos
  rw [h.begins _ hdiv _ (by omega), ← h.contiguous _ hdiv _ hmod]
  congr 2
  omega

/-- **A read whose requests look for the bytes of the content delivers them.** -/
theorem fsRead_content (h : ReadFile f p fd desc chain) (hk : KernelHeap f.sys.arena)
    (hm : Mounted f.sys p) (hspc : p.header.sectorsPerCluster < 256) (h0 : 1 ≤ size) (h1 : 1 ≤ nmemb)
    (hown : CallersBytes f.sys.arena out (nmemb * size))
    (hright : LooksRight f.sys.ata.image p (fat16ClusterSize (f.sys.disks primaryDisk) p)
      desc.privateData chain size nmemb) : ReadsContent f p fd desc chain out size nmemb := by
  constructor
  · intro f' hcall
    rw [← hright.readBytes_eq h0]
    exact (fsRead_bytes hk hm hspc h.live.found h.live.disk h.live.file h.live.pos h0 h1 hown
      (fun _ => hright.sectors) hcall).2.2.2
  · intro res s' hread hne
    rw [h.live.disk] at hread
    unfold fat16Read at hread
    rw [if_neg (not_not.mpr h.live.file)] at hread
    exact absurd (readLoop_bytes hspc h0 hk hm h.live.pos hown hread).1 hne

/-- Within the first cluster a read looks in the right place. -/
theorem LooksRight.of_first_cluster {image : Mem} {C : Nat} {data : FatFileDescriptor}
    (hfirst : fat16GetFirstCluster data.item.item = chain 0)
    (hin : data.pos + nmemb * size ≤ C) (hfits : clusterPos p (chain 0) + C ≤ 2 ^ 32)
    (hsectors : ElementsInSectors C data.pos size nmemb) :
    LooksRight image p C data chain size nmemb := by
  have hpart : ∀ k < nmemb, k * size + size ≤ nmemb * size := fun k hk => by
    rw [← Nat.succ_mul]
    exact Nat.mul_le_mul_right size hk
  refine ⟨fun k hk j hj => ?_, fun k hk i hi => ?_, hsectors⟩
  · have hk' := hpart k hk
    obtain rfl : j = 0 := by
      by_contra hne
      have := Nat.le_mul_of_pos_left C (Nat.pos_of_ne_zero hne)
      omega
    have hoffset : elementOffset data.pos size k = data.pos + k * size :=
      Nat.mod_eq_of_lt (by omega)
    have hplace : fileByte p C chain (data.pos + k * size + 0 * C) =
        clusterPos p (chain 0) + (data.pos + k * size) := by
      unfold fileByte
      rw [Nat.zero_mul, Nat.add_zero, Nat.div_eq_of_lt (by omega), Nat.mod_eq_of_lt (by omega)]
    have hword : data.pos + k * size < 2 ^ 32 := by omega
    have hinside : data.pos + k * size < C := by omega
    rw [hplace, hoffset, hfirst]
    unfold requestPos
    rw [clusterOf, Nat.div_eq_of_lt (by omega), walkCluster_zero, Nat.zero_mul, Nat.add_zero,
      Nat.mod_eq_of_lt hword, Nat.mod_eq_of_lt hinside, Nat.mod_eq_of_lt (by omega)]
  · have hk' := hpart k hk
    have hi' : i < C := by omega
    rw [Nat.div_eq_of_lt hi', Nat.zero_mul, Nat.add_zero, Nat.mod_eq_of_lt hi']
    unfold fileByte
    rw [Nat.div_eq_of_lt (by omega), Nat.div_eq_of_lt (by omega), Nat.mod_eq_of_lt (by omega),
      Nat.mod_eq_of_lt (by omega)]
    omega

end

/-! ## 2. A file of two clusters -/

/-- A volume with the file of 1024 bytes: its table leads from cluster 3 to cluster 4, the last one. -/
def sharedImage : Mem :=
  blit (blit (fun x => blankBootSector.getD x 0) 518 [4, 0, 0xFF, 0xFF]) 1536 sharedItem

/-- The file is read through a descriptor at byte 511. -/
theorem shared_readFile (v : UInt8) : ∃ f p, SharedFile f p ∧
    (freeBlocks f.sys.arena.heap).card ≠ 0 ∧ f.sys.ata.image = sharedImage ∧
    (∀ x, f.sys.arena.mem x = v) ∧ ReadFile f p 1 (sharedDescriptor 1 511) fun k => 3 + k := by
  obtain ⟨f, p, h, hcard, himage, hmem⟩ := shared_file v sharedImage
  refine ⟨f, p, h, hcard, himage, hmem, h.one, fun k hk => ?_⟩
  have hsize : sharedItem.filesize = 1024 := by decide
  have hfirst : sharedItem.low16BitsFirstCluster = 3 := by decide
  rw [h.size] at hk
  change k * 512 < sharedItem.filesize at hk
  rw [hsize] at hk
  change ChainTo _ _ k sharedItem.low16BitsFirstCluster (3 + k)
  rw [hfirst, himage, h.header]
  have hlink : tableWord sharedImage ⟨1, 1, 2, 16, 1, 100, 41⟩ 3 = 4 := by decide
  obtain rfl | rfl : k = 0 ∨ k = 1 := by omega
  · exact ChainTo.here 3
  · refine ChainTo.link (by decide) ?_ ?_
    · rw [hlink]
      decide
    · rw [hlink]
      exact ChainTo.here 4

/-- The last byte of its first cluster is read. -/
theorem fsRead_content_shared : ∃ (f : FileState FatFileDescriptor) (p : FatPrivate),
    ReadsContent f p 1 (sharedDescriptor 1 511) (fun k => 3 + k) 0x20000000 1 1 := by
  obtain ⟨f, p, h, -, -, -, hfile⟩ := shared_readFile 0
  refine ⟨f, p, fsRead_content hfile h.kernel h.mounted h.spc (Nat.le_refl 1) (Nat.le_refl 1)
    (callersBytes_above h.kernel (by omega)) ?_⟩
  rw [h.size]
  refine LooksRight.of_first_cluster (by decide) (by decide) ?_ (by decide)
  change KokoOs.clusterPos p 3 + 512 ≤ _
  rw [h.start.1]
  decide

/-- **Two bytes that are read at byte 511** are not those of the file. -/
theorem read_crosses_sector : ¬ ∀ (f : FileState FatFileDescriptor) (p : FatPrivate)
    (fd size nmemb out : Nat) (desc : FileDescriptor FatFileDescriptor) (chain : Nat → Nat),
    ReadFile f p fd desc chain → KernelHeap f.sys.arena → Mounted f.sys p →
    p.header.sectorsPerCluster < 256 → 1 ≤ size → 1 ≤ nmemb →
    desc.privateData.pos + nmemb * size ≤ desc.privateData.item.item.filesize →
    CallersBytes f.sys.arena out (nmemb * size) →
    ReadsContent f p fd desc chain out size nmemb := by
  intro hclaim
  obtain ⟨f, p, h, hcard, himage, hmem, hfile⟩ := shared_readFile 7
  have hcontent := (hclaim f p 1 2 1 0x20000000 _ _ hfile h.kernel h.mounted h.spc (by omega)
    (Nat.le_refl 1) (by decide) (callersBytes_above h.kernel (by omega))).bytes
  obtain ⟨f', seen, b, ⟨r, hrun, hseen⟩, -, -, hover⟩ : ∃ f' seen b,
      Answers f ((1, .read 0x20000000 2 1), seen) f' ∧ _ :=
    h.read hcard h.one (Or.inl ⟨rfl, rfl⟩) (by omega) (by omega)
  obtain ⟨code, f1, hcall, hpure⟩ := (bind_ok_iff _ _ _ _ _).mp hrun
  obtain ⟨-, rfl⟩ := (pure_ok_iff _ _ _ _).mp hpure
  obtain ⟨rfl, -⟩ := fsRead_loop hfile.live.found rfl rfl (by omega) Nat.one_pos hcall
  have hbyte := congrArg (fun l => l[1]?) (hcontent _ hcall)
  have hplace : fileByte p 512 (fun k => 3 + k) 512 = 3072 := h.start.2
  have hdelivered : f1.sys.arena.mem (0x20000000 + 1) = 7 := by
    rw [hover.bytes 1 (by omega) (by decide), hmem]
  rw [h.size, himage] at hbyte
  change some (f1.sys.arena.mem (0x20000000 + 1)) =
    some (sharedImage (fileByte p 512 (fun k => 3 + k) 512)) at hbyte
  rw [hdelivered, hplace] at hbyte
  exact absurd hbyte (by decide)

end KokoOs
