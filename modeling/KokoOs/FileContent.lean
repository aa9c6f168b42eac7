/-
# The content of a file, and writing at a position

The bytes of a file are those of the clusters of its chain, one after the other (`fileByte`).
`fat16_write` puts what it is given at the first cluster, wherever the position is and however the
chain goes on.

* **Writing.**  A write makes of the disk what it was with the bytes stored at the first cluster, as
  far as they lie in the sectors that the device is asked for (`fat16Write_image`).  So it writes to
  the content, at the position, exactly if that is the beginning of the file, fewer than 256 sectors
  are written and the clusters lie one behind the other on the disk (`fsWrite_content_iff`).
* **Reading back.**  What has been written in the right place is read back if the requests of the
  read begin where the clusters of the file do (`OpenFile.reads_back`); within the first cluster
  they do.
* **The result.**  Both together are `fsWrite_position_iff`.

On a file of 100 bytes a byte that is written at position 1 is found at its beginning
(`write_ignores_position`).
-/
import KokoOs.Fat16ClusterWise
import KokoOs.FileRead
import KokoOs.FileWrite

namespace KokoOs

open Bytes Prog

/-! ## 1. The content -/

/-- Where byte `i` of a file is on the disk, if `chain` gives its clusters. -/
def fileByte (p : FatPrivate) (clusterSize : Nat) (chain : Nat → Nat) (i : Nat) : Nat :=
  clusterPos p (chain (i / clusterSize)) + i % clusterSize

/-- `chain` gives the clusters that the table records for a file, as many as its size asks for. -/
def RecordedAs (image : Mem) (p : FatPrivate) (clusterSize : Nat) (item : FatDirectoryItem)
    (chain : Nat → Nat) : Prop :=
  ∀ k, k * clusterSize < item.filesize →
    ChainTo image p.header k item.low16BitsFirstCluster (chain k)

/-- A file with a valid chain: its clusters are recorded and the chain ends, no byte of the disk is two
of its bytes, and its data are behind the table.  The high half of the first cluster is not used on
FAT16. -/
structure StoredFile (s : Sys) (p : FatPrivate) (item : FatDirectoryItem) (chain : Nat → Nat) :
    Prop where
  first : item.low16BitsFirstCluster ≠ 0
  high : item.high16BitsFirstCluster = 0
  links : RecordedAs s.ata.image p (fat16ClusterSize (s.disks primaryDisk) p) item chain
  ended : ∃ k c, ChainTo s.ata.image p.header k item.low16BitsFirstCluster c ∧
    InTable p.header c ∧ EndsChain (tableWord s.ata.image p.header c)
  apart : ∀ i < item.filesize, ∀ j < item.filesize,
    fileByte p (fat16ClusterSize (s.disks primaryDisk) p) chain i =
      fileByte p (fat16ClusterSize (s.disks primaryDisk) p) chain j → i = j
  behind : 512 * (p.header.reservedSectors + p.header.sectorsPerFat) ≤
    clusterPos p item.low16BitsFirstCluster

/-- The first cluster of a file is the one of its entry. -/
theorem RecordedAs.zero {image : Mem} {p : FatPrivate} {clusterSize : Nat} {item : FatDirectoryItem}
    {chain : Nat → Nat} (h : RecordedAs image p clusterSize item chain) (h0 : 0 < item.filesize) :
    chain 0 = item.low16BitsFirstCluster := by
  have h1 := h 0 (by omega)
  generalize item.low16BitsFirstCluster = c at h1
  cases h1 with
  | here => rfl

/-- The byte's place in its cluster. -/
theorem fileByte_base (p : FatPrivate) (clusterSize : Nat) (chain : Nat → Nat) (i : Nat) :
    fileByte p clusterSize chain i =
      fileByte p clusterSize chain (i / clusterSize * clusterSize) + i % clusterSize := by
  unfold fileByte
  rcases Nat.eq_zero_or_pos clusterSize with rfl | hC
  · rw [Nat.div_zero, Nat.zero_mul, Nat.div_zero, Nat.zero_mod, Nat.add_zero]
  · rw [Nat.mul_div_left _ hC, Nat.mul_mod_left, Nat.add_zero]

/-! ## 2. Writing -/

section

variable {s s' : Sys} {p : FatPrivate} {data : FatFileDescriptor} {input n : Nat}

/-- The sectors that a transfer of `n` bytes asks the device for, in bytes. -/
def transferred (n : Nat) : Nat := 512 * (diskStreamGetAffectedSectors n % 256)

theorem le_transferred_iff : n ≤ transferred n ↔ n ≤ 130560 := by
  unfold transferred
  rw [affectedSectors_eq]
  omega

theorem clusterPos_mod (p : FatPrivate) (cluster : Nat) : clusterPos p cluster % 512 = 0 := by
  unfold clusterPos
  omega

/-- **What a write to a file with a cluster makes of the disk**: the bytes are stored at the cluster, as
far as they lie in the sectors that the device is asked for. -/
theorem fat16Write_image (hk : KernelHeap s.arena) (hm : Mounted s p) (hfile : data.item.type = .file)
    (hcluster : data.item.item.low16BitsFirstCluster ≠ 0) (h0 : n ≠ 0) (hn : n < 2 ^ 32)
    (hown : Owned s.arena input n) {r : Int × FatFileDescriptor}
    (h : fat16Write primaryDisk input data n s = .ok r s') :
    r.2 = data ∧ KernelHeap s'.arena ∧ Mounted s' p ∧ s'.disks = s.disks ∧
      s'.ata.image = blit s.ata.image (clusterPos p data.item.item.low16BitsFirstCluster)
        ((slice s.arena.mem input n).take (transferred n)) := by
  have hlater := fat16Write_later hm hfile hcluster h
  obtain ⟨code, hw, rfl⟩ := (fat16Write_later_iff hm hfile hcluster).mp h
  have hstill := still_seekTo s p.clusterReadStream
    (clusterPos p data.item.item.low16BitsFirstCluster)
  have halign := clusterPos_mod p data.item.item.low16BitsFirstCluster
  have hfit : FitsSectors ((seekTo s p.clusterReadStream (clusterPos p
      data.item.item.low16BitsFirstCluster)).streams p.clusterReadStream).pos n := by
    unfold FitsSectors
    rw [seekTo_pos, halign, affectedSectors_eq]
    omega
  obtain ⟨hk', -, -, -, hcase⟩ := diskStreamWrite_spec
    (s := seekTo s p.clusterReadStream (clusterPos p data.item.item.low16BitsFirstCluster))
    hk (hstill.streams _ hm.clusterStream) h0 hn hfit hown hw
  refine ⟨rfl, hk', hm.congr hlater.disks hlater.streams, hlater.disks, ?_⟩
  rw [seekTo_pos] at hcase
  rcases hcase with ⟨hc, -, -, himage⟩ | ⟨-, -, -, himage⟩
  · have hzero : transferred n = 0 := by
      unfold transferred
      rw [hc]
    rw [himage, hzero, List.take_zero]
    funext x
    exact (blit_of_not_mem (by simp)).symm
  · funext x
    rw [himage x]
    have hlen : ((slice s.arena.mem input n).take (transferred n)).length = min (transferred n) n := by
      simp
    have htransferred : transferred n = 512 * (diskStreamGetAffectedSectors n % 256) := rfl
    by_cases hin : clusterPos p data.item.item.low16BitsFirstCluster ≤ x ∧
        x < clusterPos p data.item.item.low16BitsFirstCluster + min (transferred n) n
    · obtain ⟨i, rfl⟩ := Nat.exists_eq_add_of_le hin.1
      rw [if_pos (by omega), blit_add (by omega), List.getElem_take, getElem_slice,
        Nat.add_sub_cancel_left]
      rfl
    · rw [if_neg (by omega), blit_of_not_mem (by omega)]
      rfl

end

/-! ## 3. Writing at the position -/

section

variable {f f' : FileState FatFileDescriptor} {p : FatPrivate} {fd input n : Nat} {code : Int}
  {desc : FileDescriptor FatFileDescriptor} {chain : Nat → Nat}

/-- The state in which the bytes at `input` are `bs`. -/
def withInput (f : FileState FatFileDescriptor) (input : Nat) (bs : List UInt8) :
    FileState FatFileDescriptor :=
  { f with sys := { f.sys with
    arena := ⟨f.sys.arena.heap, blit f.sys.arena.mem input bs⟩ } }

/-- `fd` is a descriptor of a stored file. -/
structure OpenFile (f : FileState FatFileDescriptor) (p : FatPrivate) (fd : Nat)
    (desc : FileDescriptor FatFileDescriptor) (chain : Nat → Nat) : Prop where
  found : fsFindFileDescriptor f fd = some desc
  disk : desc.disk = primaryDisk
  file : desc.privateData.item.type = .file
  stored : StoredFile f.sys p desc.privateData.item.item chain

/-- Between `f` and `f'` the bytes `bs` have been written to the file at its position: the chain is still
recorded, and nothing else of the content has changed. -/
structure WrittenAt (f f' : FileState FatFileDescriptor) (p : FatPrivate)
    (desc : FileDescriptor FatFileDescriptor) (chain : Nat → Nat) (bs : List UInt8) : Prop where
  links : RecordedAs f'.sys.ata.image p (fat16ClusterSize (f.sys.disks primaryDisk) p)
    desc.privateData.item.item chain
  bytes : ∀ i < desc.privateData.item.item.filesize,
    f'.sys.ata.image (fileByte p (fat16ClusterSize (f.sys.disks primaryDisk) p) chain i) =
      blit (fun j => f.sys.ata.image
        (fileByte p (fat16ClusterSize (f.sys.disks primaryDisk) p) chain j))
        desc.privateData.pos bs i

/-- What the call on `bs` has done. -/
structure WriteDone (f f' : FileState FatFileDescriptor) (p : FatPrivate) (fd : Nat)
    (desc : FileDescriptor FatFileDescriptor) (n : Nat) (bs : List UInt8) : Prop where
  kernel : KernelHeap f'.sys.arena
  mounted : Mounted f'.sys p
  disks : f'.sys.disks = f.sys.disks
  found : fsFindFileDescriptor f' fd = some desc
  image : f'.sys.ata.image = blit f.sys.ata.image
    (clusterPos p desc.privateData.item.item.low16BitsFirstCluster) (bs.take (transferred n))

theorem filesize_lt (item : FatDirectoryItem) : item.filesize < 2 ^ 32 := u32_lt _ _

/-- **The call stores the bytes at the first cluster.** -/
theorem OpenFile.write_done (h : OpenFile f p fd desc chain) (hk : KernelHeap f.sys.arena)
    (hm : Mounted f.sys p) (h0 : 1 ≤ n)
    (hn : desc.privateData.pos + n ≤ desc.privateData.item.item.filesize)
    (hown : Owned f.sys.arena input n) {bs : List UInt8} (hbs : bs.length = n)
    (hcall : fsWrite fileSystemOf input fd n (withInput f input bs) = .ok code f') :
    WriteDone f f' p fd desc n bs := by
  have hsize := filesize_lt desc.privateData.item.item
  have hk' : KernelHeap (withInput f input bs).sys.arena := hk.congr rfl
  have hm' : Mounted (withInput f input bs).sys p := hm.congr rfl fun _ hst => hst
  obtain ⟨hfd, hlt, -⟩ := fsFind_slot h.found
  rcases fsWrite_ok hcall with ⟨hbad, -, -⟩ | ⟨-, ⟨hnone, -⟩ | ⟨d, res, data, s, hfind, hw, rfl, rfl⟩⟩
  · omega
  · rw [show fsFindFileDescriptor (withInput f input bs) fd = some desc from h.found] at hnone
    cases hnone
  · obtain rfl : desc = d := Option.some_inj.mp (h.found.symm.trans hfind)
    rw [h.disk] at hw
    cases hfs : desc.fs
    rw [hfs] at hw
    change fat16Write primaryDisk input desc.privateData n (withInput f input bs).sys =
      .ok (res, data) s at hw
    obtain ⟨hdata, hkernel, hmounted, hdisks, himage⟩ := fat16Write_image hk' hm' h.file h.stored.first
      (by omega) (by omega) hown hw
    have hslice : slice (withInput f input bs).sys.arena.mem input n = bs := by
      rw [← hbs]
      exact slice_blit _ _ _
    rw [hslice] at himage
    obtain rfl : data = desc.privateData := hdata
    refine ⟨hkernel, hmounted, hdisks, ?_, himage⟩
    rw [fsFindFileDescriptor_eq, if_pos ⟨hfd, hlt⟩]
    exact Function.update_self _ _ _

/-- If there is room for the bytes, the call returns. -/
theorem OpenFile.write_returns (h : OpenFile f p fd desc chain) (hk : KernelHeap f.sys.arena)
    (hm : Mounted f.sys p) (h0 : 1 ≤ n)
    (hroom : Transferable (seekTo f.sys p.clusterReadStream (clusterPos p
      desc.privateData.item.item.low16BitsFirstCluster)) p.clusterReadStream n) (bs : List UInt8) :
    ∃ code f', fsWrite fileSystemOf input fd n (withInput f input bs) = .ok code f' := by
  let s : Sys := seekTo (withInput f input bs).sys p.clusterReadStream (clusterPos p
    desc.privateData.item.item.low16BitsFirstCluster)
  have hk' : KernelHeap s.arena := hk.congr rfl
  have hm' : Mounted (withInput f input bs).sys p := hm.congr rfl fun _ hst => hst
  obtain ⟨code, s', hw⟩ : ∃ code s', diskStreamWrite p.clusterReadStream input n s = .ok code s' :=
    diskStreamWrite_returns hk'
    ((still_seekTo (withInput f input bs).sys p.clusterReadStream _).streams _ hm.clusterStream)
    (Nat.pos_iff_ne_zero.mp h0) (⟨hroom.pos, hroom.buffer, hroom.sectors⟩ :
      Transferable s p.clusterReadStream n)
  have hrun := (fat16Write_later_iff hm' h.file h.stored.first).mpr ⟨code, hw, rfl⟩
  exact ⟨_, _, fsWrite_run (Nat.pos_iff_ne_zero.mp h0) h.found
    (by rw [h.disk]; cases desc.fs; exact hrun)⟩

/-- The bytes from the position on lie where a write puts them: the position is the beginning of the
file, fewer than 256 sectors are written, and the clusters of the bytes lie one behind the other. -/
structure WritesThere (p : FatPrivate) (clusterSize : Nat) (desc : FileDescriptor FatFileDescriptor)
    (chain : Nat → Nat) (n : Nat) : Prop where
  beginning : desc.privateData.pos = 0
  sectors : n ≤ 130560
  contiguous : ∀ i < n, fileByte p clusterSize chain i = fileByte p clusterSize chain 0 + i

/-- The content begins at the first cluster. -/
theorem OpenFile.fileByte_zero (h : OpenFile f p fd desc chain)
    (h0 : 0 < desc.privateData.item.item.filesize) :
    fileByte p (fat16ClusterSize (f.sys.disks primaryDisk) p) chain 0 =
      clusterPos p desc.privateData.item.item.low16BitsFirstCluster := by
  unfold fileByte
  rw [Nat.zero_div, Nat.zero_mod, h.stored.links.zero h0, Nat.add_zero]

theorem OpenFile.writesThere_iff (h : OpenFile f p fd desc chain) (h0 : 1 ≤ n)
    (hn : desc.privateData.pos + n ≤ desc.privateData.item.item.filesize) :
    (n ≤ transferred n ∧ ∀ i < n, fileByte p (fat16ClusterSize (f.sys.disks primaryDisk) p) chain
        (desc.privateData.pos + i) =
      clusterPos p desc.privateData.item.item.low16BitsFirstCluster + i) ↔
    WritesThere p (fat16ClusterSize (f.sys.disks primaryDisk) p) desc chain n := by
  have hfirst := h.fileByte_zero (by omega)
  rw [le_transferred_iff]
  constructor
  · rintro ⟨hle, hplace⟩
    have hzero : desc.privateData.pos = 0 := by
      have h1 := hplace 0 (by omega)
      rw [Nat.add_zero, Nat.add_zero, ← hfirst] at h1
      exact h.stored.apart _ (by omega) 0 (by omega) h1
    refine ⟨hzero, hle, fun i hi => ?_⟩
    have h1 := hplace i hi
    rw [hzero, Nat.zero_add] at h1
    rw [hfirst, h1]
  · rintro ⟨hzero, hle, hplace⟩
    refine ⟨hle, fun i hi => ?_⟩
    rw [hzero, Nat.zero_add, hplace i hi, hfirst]

/-- **Writing any bytes to a file writes them to its content at the position, exactly if the bytes from
there on lie where a write puts them.** -/
theorem fsWrite_content_iff (h : OpenFile f p fd desc chain) (hk : KernelHeap f.sys.arena)
    (hm : Mounted f.sys p) (h0 : 1 ≤ n)
    (hn : desc.privateData.pos + n ≤ desc.privateData.item.item.filesize)
    (hown : Owned f.sys.arena input n)
    (hroom : Transferable (seekTo f.sys p.clusterReadStream (clusterPos p
      desc.privateData.item.item.low16BitsFirstCluster)) p.clusterReadStream n) :
    (∀ bs, bs.length = n → ∀ code f',
      fsWrite fileSystemOf input fd n (withInput f input bs) = .ok code f' →
      WrittenAt f f' p desc chain bs) ↔
    WritesThere p (fat16ClusterSize (f.sys.disks primaryDisk) p) desc chain n := by
  rw [← h.writesThere_iff h0 hn, ← blit_placed_iff (m := f.sys.ata.image) h.stored.apart hn]
  constructor
  · intro hclaim bs hbs i hi
    obtain ⟨code, f', hcall⟩ : ∃ code f', fsWrite fileSystemOf input fd n (withInput f input bs) =
        .ok code f' := h.write_returns hk hm h0 hroom bs
    have hdone := h.write_done hk hm h0 hn hown hbs hcall
    rw [← hdone.image]
    exact (hclaim bs hbs code f' hcall).bytes i hi
  · intro hplaced bs hbs code f' hcall
    have hdone := h.write_done hk hm h0 hn hown hbs hcall
    refine ⟨fun k hk => (h.stored.links k hk).congr fun x hx => ?_, fun i hi => ?_⟩
    · rw [hdone.image]
      have hbehind := h.stored.behind
      exact blit_of_not_mem (by omega)
    · rw [hdone.image]
      exact hplaced bs hbs i hi

/-! ## 4. Reading back -/

/-- Whatever is written, the requests of a read of the first `n` bytes begin where the clusters of the
file do. -/
def ReadsThere (image : Mem) (p : FatPrivate) (clusterSize : Nat)
    (desc : FileDescriptor FatFileDescriptor) (chain : Nat → Nat) (n : Nat) : Prop :=
  ∀ image' : Mem, (∀ x, ¬ (clusterPos p desc.privateData.item.item.low16BitsFirstCluster ≤ x ∧
      x < clusterPos p desc.privateData.item.item.low16BitsFirstCluster + n) → image' x = image x) →
    ∀ j, j * clusterSize < n → requestPos image' p clusterSize
      desc.privateData.item.item.low16BitsFirstCluster 0 j = fileByte p clusterSize chain (j * clusterSize)

/-- Within the first cluster they do. -/
theorem OpenFile.readsThere (h : OpenFile f p fd desc chain)
    (hn : desc.privateData.pos + n ≤ desc.privateData.item.item.filesize) (h0 : 1 ≤ n)
    (hle : n ≤ fat16ClusterSize (f.sys.disks primaryDisk) p) :
    ReadsThere f.sys.ata.image p (fat16ClusterSize (f.sys.disks primaryDisk) p) desc chain n := by
  intro image' _ j hj
  have hzero : j = 0 := by
    by_contra hne
    have h1 := Nat.le_mul_of_pos_left (fat16ClusterSize (f.sys.disks primaryDisk) p)
      (Nat.pos_of_ne_zero hne)
    omega
  have hlt : clusterPos p desc.privateData.item.item.low16BitsFirstCluster < 2 ^ 32 :=
    Nat.mod_lt _ (by omega)
  subst hzero
  unfold requestPos fileByte
  rw [Nat.zero_mul, Nat.zero_div, Nat.zero_mod, h.stored.links.zero (by omega), clusterOf,
    Nat.zero_div, walkCluster_zero]
  rw [Nat.zero_mod, Nat.add_zero, Nat.mod_eq_of_lt hlt]

/-- From the beginning on, every byte of a read lies in the sectors that are asked for. -/
theorem inSectors_zero {clusterSize n i : Nat} (hC : 0 < clusterSize) (hi : i < n) :
    InSectors clusterSize 0 n i := by
  unfold InSectors
  rw [affectedSectors_eq]
  have hdiv := Nat.div_add_mod' i clusterSize
  have hlt := Nat.mod_lt i hC
  omega

/-- A read of `n` bytes of the file delivers `bs`. -/
def ReadsBack (f : FileState FatFileDescriptor) (fd n : Nat) (bs : List UInt8) : Prop :=
  ∀ out code f', CallersBytes f.sys.arena out n → fsRead fileSystemOf out fd n 1 f = .ok code f' →
    code = ok ∧ slice f'.sys.arena.mem out n = bs

theorem OpenFile.firstCluster (h : OpenFile f p fd desc chain) :
    fat16GetFirstCluster desc.privateData.item.item =
      desc.privateData.item.item.low16BitsFirstCluster := by
  unfold fat16GetFirstCluster
  rw [h.stored.high, Nat.zero_or]

/-- **What has been written is read back**, if the read looks for it where it is. -/
theorem OpenFile.reads_back (h : OpenFile f p fd desc chain) (hspc : p.header.sectorsPerCluster < 256)
    (h0 : 1 ≤ n) {bs : List UInt8} (hbs : bs.length = n) (hdone : WriteDone f f' p fd desc n bs)
    (hthere : WritesThere p (fat16ClusterSize (f.sys.disks primaryDisk) p) desc chain n)
    (hn : desc.privateData.pos + n ≤ desc.privateData.item.item.filesize)
    (hreads : ReadsThere f.sys.ata.image p (fat16ClusterSize (f.sys.disks primaryDisk) p) desc chain
      n) : ReadsBack f' fd n bs := by
  intro out code f'' hout hcall
  have hsize := filesize_lt desc.privateData.item.item
  have hpos := hthere.beginning
  obtain ⟨rfl, -, -, hbytes⟩ := fsRead_bytes hdone.kernel hdone.mounted hspc hdone.found h.disk h.file
    (by omega) h0 Nat.one_pos ((Nat.one_mul n).symm ▸ hout) (fun hC k hk i hi => by
      rw [hpos, Nat.lt_one_iff.mp hk, elementOffset_zero (by omega)]
      exact inSectors_zero hC hi) hcall
  refine ⟨rfl, ?_⟩
  rw [Nat.one_mul, hdone.disks] at hbytes
  rw [hbytes, ← slice_blit f.sys.ata.image (clusterPos p
    desc.privateData.item.item.low16BitsFirstCluster) bs, hbs]
  unfold readBytes slice
  rw [Nat.one_mul]
  refine List.map_congr_left fun i hi => ?_
  have hi' := List.mem_range.mp hi
  have hsame := hreads f'.sys.ata.image (fun x hx => by
    rw [hdone.image]
    exact blit_of_not_mem (by rw [List.length_take]; omega)) (i /
      fat16ClusterSize (f.sys.disks primaryDisk) p) (by
    have hdiv := Nat.div_mul_le_self i (fat16ClusterSize (f.sys.disks primaryDisk) p)
    omega)
  unfold elementPos
  rw [Nat.div_eq_of_lt hi', Nat.mod_eq_of_lt hi', hpos, elementOffset_zero (by omega), h.firstCluster,
    hsame, ← fileByte_base, hthere.contiguous i hi', h.fileByte_zero (by omega), hdone.image,
    List.take_of_length_le (by
      rw [hbs]
      exact le_transferred_iff.mpr hthere.sectors)]

/-- **Writing honours the position** exactly if the bytes lie where a write puts them; and then a read of
them gives them back if it looks for them there, as it does within the first cluster. -/
theorem fsWrite_position_iff (h : OpenFile f p fd desc chain) (hk : KernelHeap f.sys.arena)
    (hm : Mounted f.sys p) (hspc : p.header.sectorsPerCluster < 256) (h0 : 1 ≤ n)
    (hn : desc.privateData.pos + n ≤ desc.privateData.item.item.filesize)
    (hown : Owned f.sys.arena input n)
    (hroom : Transferable (seekTo f.sys p.clusterReadStream (clusterPos p
      desc.privateData.item.item.low16BitsFirstCluster)) p.clusterReadStream n) :
    ((∀ bs, bs.length = n → ∀ code f',
        fsWrite fileSystemOf input fd n (withInput f input bs) = .ok code f' →
        WrittenAt f f' p desc chain bs) ↔
      WritesThere p (fat16ClusterSize (f.sys.disks primaryDisk) p) desc chain n) ∧
    (WritesThere p (fat16ClusterSize (f.sys.disks primaryDisk) p) desc chain n →
      ReadsThere f.sys.ata.image p (fat16ClusterSize (f.sys.disks primaryDisk) p) desc chain n →
      ∀ bs, bs.length = n → ∀ code f',
        fsWrite fileSystemOf input fd n (withInput f input bs) = .ok code f' →
        WrittenAt f f' p desc chain bs ∧ ReadsBack f' fd n bs) ∧
    (n ≤ fat16ClusterSize (f.sys.disks primaryDisk) p →
      ReadsThere f.sys.ata.image p (fat16ClusterSize (f.sys.disks primaryDisk) p) desc chain n) := by
  have hiff := fsWrite_content_iff h hk hm h0 hn hown hroom
  refine ⟨hiff, fun hthere hreads bs hbs code f' hcall => ⟨hiff.mpr hthere bs hbs code f' hcall, ?_⟩,
    h.readsThere hn h0⟩
  exact h.reads_back hspc h0 hbs (h.write_done hk hm h0 hn hown hbs hcall) hthere hn hreads

end

/-! ## 5. A file in the first cluster of a volume -/

/-- The entry of a file of 100 bytes in cluster 3. -/
def storedItem : FatDirectoryItem :=
  [65, 32, 32, 32, 32, 32, 32, 32, 84, 88, 84] ++ List.replicate 15 0 ++ [3, 0, 100, 0, 0, 0]

/-- The volume with the file: its chain ends with its first cluster. -/
def storedImage : Mem :=
  blit (blit (fun x => blankBootSector.getD x 0) 518 [0xFF, 0xFF]) 1536 storedItem

/-- A descriptor of the file at position `pos`. -/
def storedDescriptor (pos : Nat) : FileDescriptor FatFileDescriptor where
  address := 0
  index := 1
  fs := .fat16
  disk := primaryDisk
  privateData := ⟨0, { address := 0, itemAddress := 0, item := storedItem, type := .file }, pos⟩

/-- The file is open on a mounted volume, as the first of the table, and there is room to write a
byte of it. -/
theorem stored_open (pos : Nat) : ∃ (f : FileState FatFileDescriptor) (p : FatPrivate),
    KernelHeap f.sys.arena ∧ Mounted f.sys p ∧ p.header.sectorsPerCluster < 256 ∧
    fat16ClusterSize (f.sys.disks primaryDisk) p = 512 ∧ Owned f.sys.arena 0x20000000 1 ∧
    Transferable (seekTo f.sys p.clusterReadStream (clusterPos p 3)) p.clusterReadStream 1 ∧
    OpenFile f p 1 (storedDescriptor pos) (fun _ => 3) := by
  obtain ⟨s, f, q, desc, c, hb, -, -⟩ := blank_live
  have hhead := hb.header
  have hpos := hb.clusterPos
  have hsize : fat16ClusterSize (f.sys.disks primaryDisk) q = 512 := by
    rw [hb.blank.mounted.clusterSize, hhead]
    rfl
  have hbyte : ∀ i < 512, fileByte q 512 (fun _ => 3) i = 2560 + i := fun i hi => by
    unfold fileByte
    rw [hpos, Nat.mod_eq_of_lt hi]
  have hitem : storedItem.filesize = 100 := by decide
  refine ⟨⟨{ f.sys with ata := ⟨100, storedImage⟩ }, f.fileSystems,
    Function.update f.fileDescriptors 0 (some (storedDescriptor pos))⟩, q, hb.blank.kernel.congr rfl,
    hb.blank.mounted.congr rfl fun _ hst => hst, by rw [hhead]; decide, hsize, fun i _ =>
      not_inFree_above hb.blank.kernel (by omega : 0x10000000 ≤ 0x20000000 + i), ?_, ?_, rfl, rfl,
    ?_, ?_, ?_, ?_, ?_, ?_⟩
  · refine Transferable.of_card (hb.blank.kernel.congr rfl) (by decide) ?_ fun _ => ?_
    · have hcard := hb.card
      change 25600 < 25600 / 1 + (freeBlocks f.sys.arena.heap).card
      omega
    · rw [seekTo_pos, hpos]
      change _ ≤ 100
      decide
  · rw [fsFindFileDescriptor_eq, if_pos (by decide)]
    change Function.update f.fileDescriptors 0 (some (storedDescriptor pos)) 0 = _
    rw [Function.update_self]
  · change storedItem.low16BitsFirstCluster ≠ 0
    decide
  · change storedItem.high16BitsFirstCluster = 0
    decide
  · intro k hk
    rw [hsize] at hk
    change k * 512 < storedItem.filesize at hk
    obtain rfl : k = 0 := by omega
    exact ChainTo.here 3
  · refine ⟨0, 3, ChainTo.here 3, ?_, ?_⟩
    · rw [hhead]
      decide
    · rw [hhead]
      change EndsChain (tableWord storedImage _ 3)
      decide
  · intro i hi j hj heq
    change i < storedItem.filesize at hi
    change j < storedItem.filesize at hj
    rw [hsize, hbyte i (by omega), hbyte j (by omega)] at heq
    omega
  · rw [hhead]
    change _ ≤ clusterPos q 3
    rw [hpos]
    decide

/-- A byte that is written to the beginning of the file is read back. -/
theorem fsWrite_position_stored : ∃ (f : FileState FatFileDescriptor) (p : FatPrivate),
    ∀ bs, bs.length = 1 → ∀ code f',
      fsWrite fileSystemOf 0x20000000 1 1 (withInput f 0x20000000 bs) = .ok code f' →
      WrittenAt f f' p (storedDescriptor 0) (fun _ => 3) bs ∧ ReadsBack f' 1 1 bs := by
  obtain ⟨f, p, hk, hm, hspc, hsize, hown, hroom, hopen⟩ := stored_open 0
  obtain ⟨-, hback, hwithin⟩ := fsWrite_position_iff hopen hk hm hspc (Nat.le_refl 1) (by decide)
    hown hroom
  refine ⟨f, p, hback ⟨rfl, by decide, fun i hi => ?_⟩ (hwithin (by omega))⟩
  obtain rfl : i = 0 := by omega
  rw [Nat.add_zero]

/-- **At position 1 a byte is written to the beginning of the file**, not to byte 1. -/
theorem write_ignores_position : ¬ ∀ (f f' : FileState FatFileDescriptor) (p : FatPrivate)
    (fd input n : Nat) (desc : FileDescriptor FatFileDescriptor) (chain : Nat → Nat)
    (bs : List UInt8) (code : Int), OpenFile f p fd desc chain → KernelHeap f.sys.arena →
    Mounted f.sys p → p.header.sectorsPerCluster < 256 → 1 ≤ n →
    desc.privateData.pos + n ≤ desc.privateData.item.item.filesize → Owned f.sys.arena input n →
    bs.length = n → fsWrite fileSystemOf input fd n (withInput f input bs) = .ok code f' →
    WrittenAt f f' p desc chain bs ∧ ReadsBack f' fd n bs := by
  intro hclaim
  obtain ⟨f, p, hk, hm, hspc, -, hown, hroom, hopen⟩ := stored_open 1
  have hthere := (fsWrite_content_iff hopen hk hm (Nat.le_refl 1) (by decide) hown hroom).mp
    fun bs hbs code f' hcall => (hclaim f f' p 1 0x20000000 1 _ _ bs code hopen hk hm hspc
      (Nat.le_refl 1) (by decide) hown hbs hcall).1
  exact absurd hthere.beginning (by decide)

end KokoOs
