/-
# Opening files on a blank volume

A blank volume is mounted, and `0:/c` is opened on it again and again.  As long as there are eight
free blocks an open for writing succeeds, and an open for reading finds nothing
(`fsOpen_write_blank`, `fsOpen_read_blank`): the runs that concrete counterexamples are made of.

The volume is a boot sector with whatever content behind it (`volumeSys`); it can be mounted if its
root directory, at byte 1536, has an end marker (`volumeSys_mountable`).  The blank one has zeros there.
No function of the driver is run on these disks by computing it: that mounting succeeds is a case of
the general theorem on mounting, and so is every open.
-/
import KokoOs.Fat16Write
import KokoOs.FileOpen

namespace KokoOs

open Bytes Prog

/-! ## 1. The volume -/

/-- The boot sector: clusters of one sector, one reserved sector, two tables of one sector, 16
entries in the root directory, 100 sectors. -/
def blankBootSector : List UInt8 :=
  List.replicate 13 0 ++ [1, 1, 0, 2, 16, 0, 0, 0, 0, 1, 0, 0, 0, 0, 0, 0, 0, 0, 0,
    100, 0, 0, 0, 0, 0, 41]

/-- A kernel in front of the volume, with the path `0:/c` at `filename`. -/
def blankSys (filename : Nat) (c : List UInt8) : Sys where
  arena := pathKernel filename [c]
  ata := { sectors := 100, image := fun x => blankBootSector.getD x 0 }
  disks := fun _ => { id := 0, type := 0, sectorSize := 512, fs := none, fsPrivate := none }
  streams := fun _ => { pos := 0, disk := primaryDisk }

theorem blankSys_header (filename : Nat) (c : List UInt8) :
    volumeHeader (blankSys filename c) = ⟨1, 1, 2, 16, 1, 100, 41⟩ := by
  change FatHeader.read (fun x => blankBootSector.getD x 0) 0 = _
  decide

theorem blankSys_blank (filename : Nat) (c : List UInt8) : Blank (blankSys filename c) := by
  have hhead := blankSys_header filename c
  have hcard : (freeBlocks (blankSys filename c).arena.heap).card = 25600 := freshKernel_free _
  refine ⟨by omega, by rw [hhead], by rw [hhead], ?_, ?_, ?_⟩
  · rw [hhead]
    decide
  · rw [hhead]
    change 3 < 100
    omega
  · rw [hhead]
    change blankBootSector.getD 1536 0 = 0
    decide

/-- A kernel in front of a volume with the same boot sector, and `content` behind it. -/
def volumeSys (content : Mem) : Sys where
  arena := freshKernel fun _ => 0
  ata := { sectors := 100,
           image := fun x => if x < 62 then blankBootSector.getD x 0 else content x }
  disks := fun _ => { id := 0, type := 0, sectorSize := 512, fs := none, fsPrivate := none }
  streams := fun _ => { pos := 0, disk := primaryDisk }

theorem volumeSys_header (content : Mem) :
    volumeHeader (volumeSys content) = ⟨1, 1, 2, 16, 1, 100, 41⟩ := by
  have hread : FatHeader.read (volumeSys content).ata.image 0 =
      FatHeader.read (fun x => blankBootSector.getD x 0) 0 :=
    FatHeader.read_congr fun i hi => if_pos (by omega)
  exact hread.trans (by decide)

/-- **Such a volume can be mounted** if its root directory, at byte 1536, has an end marker. -/
theorem volumeSys_mountable {content : Mem} {k : Nat} (hk : 1536 + 32 * k < 51200)
    (hmarker : content (1536 + 32 * k) = 0) (hitems : ∀ j < k, content (1536 + 32 * j) ≠ 0) :
    Mountable (volumeSys content) := by
  have hhead := volumeSys_header content
  have hcard : (freeBlocks (volumeSys content).arena.heap).card = 25600 := freshKernel_free _
  have hpos : rootPos (volumeHeader (volumeSys content)) = 1536 := by rw [hhead]; rfl
  refine ⟨by omega, by rw [hhead], by rw [hhead], by rw [hhead]; decide, ?_, k, ?_, ?_⟩
  · rw [hhead]
    change 3 < 100
    omega
  · rw [hpos]
    refine ⟨by omega, (if_neg (by omega)).trans hmarker, fun j hj => ?_⟩
    exact (if_neg (by omega)).trans_ne (hitems j hj)
  · rw [hpos]
    change (1536 + 32 * k) / 512 < 100
    omega

/-- A mounted volume with an empty root directory, and the path `0:/c` at `filename`. -/
structure OnBlank (s : Sys) (q : FatPrivate) (filename : Nat) (c : List UInt8) : Prop where
  kernel : KernelHeap s.arena
  mounted : Mounted s q
  empty : q.rootDirectory.total = 0
  str : CString s.arena.mem filename (pathOf 0 [c])

section

variable {s s' : Sys} {q : FatPrivate} {filename : Nat} {c : List UInt8}

/-- Memory above the heap is outside it, and not on the stack. -/
theorem outside_above {x : Nat} (hx : 0x10000000 ≤ x) : OutsideHeap x ∧ x ∉ stackRange := by
  refine ⟨Or.inr ?_, fun hin => ?_⟩
  · unfold blockAt
    simp only [memoryHeapStartAddress]
    omega
  · have hin' := Set.mem_Ico.mp hin
    simp only [stackBuffer] at hin'
    omega

theorem OnBlank.touches (h : OnBlank s q filename c) (hfile : 0x10000000 ≤ filename)
    {T : Set Nat} (ht : Touches T stackRange s.arena s'.arena) (hm : Mounted s' q) :
    OnBlank s' q filename c := by
  refine ⟨ht.kernel, hm, h.empty, h.str.congr fun i _ => ?_⟩
  obtain ⟨hout, hstack⟩ := outside_above (by omega : 0x10000000 ≤ filename + i)
  exact ht.outside _ hout hstack

theorem OnBlank.quiet (h : OnBlank s q filename c) (hfile : 0x10000000 ≤ filename) {T : Set Nat}
    (hq : Quiet T stackRange s s') : OnBlank s' q filename c :=
  h.touches hfile hq.touches (hq.mounted h.mounted)

theorem OnBlank.pathString (h : OnBlank s q filename c) (hfile : 0x10000000 ≤ filename)
    (hc : IsComponent c) : PathString s.arena filename (pathOf 0 [c]) where
  str := h.str
  nz := zero_notMem_pathOf (by omega) fun x hx => List.mem_singleton.mp hx ▸ hc
  off := by
    refine Or.inr ?_
    simp only [stackBuffer]
    omega
  stored i _ := not_inFree_above h.kernel (by omega)

/-- **Mounting a mountable volume succeeds.** -/
theorem Mountable.mounts {s0 : Sys} (h : Mountable s0) (hk : KernelHeap s0.arena)
    (hid : (s0.disks primaryDisk).id = 0) (hsize : (s0.disks primaryDisk).sectorSize = 512) : ∃ s q,
    fat16Resolve primaryDisk s0 = .ok ok s ∧ Mounted s q ∧ Accepted s0 q ∧
      Touches ∅ stackRange s0.arena s.arena ∧ s.ata = s0.ata ∧
      (freeBlocks s0.arena.heap).card ≤ (freeBlocks s.arena.heap).card + 5 := by
  obtain ⟨code, s, hrun, rfl, q, hm, hacc, ht, hata, hfree⟩ := Runs.total (fat16Resolve_runs
    hk hid hsize fun hb => absurd h hb)
  exact ⟨s, q, hrun, hm, hacc, ht, hata, hfree h⟩

theorem blank_mounts (hfile : 0x10000000 ≤ filename) (c : List UInt8) : ∃ s q,
    fat16Resolve primaryDisk (blankSys filename c) = .ok ok s ∧ OnBlank s q filename c ∧
      Accepted (blankSys filename c) q ∧ s.ata = (blankSys filename c).ata ∧
      25595 ≤ (freeBlocks s.arena.heap).card := by
  have hblank := blankSys_blank filename c
  have hcard : (freeBlocks (blankSys filename c).arena.heap).card = 25600 := freshKernel_free _
  obtain ⟨s, q, hrun, hm, hacc, ht, hata, hfree⟩ :=
    hblank.mountable.mounts (freshKernel_kernelHeap _) rfl rfl
  refine ⟨s, q, hrun, ⟨ht.kernel, hm, hacc.blank hblank, ?_⟩, hacc, hata, ?_⟩
  · refine (pathKernel_stored hfile [c]).1.congr fun i _ => ?_
    obtain ⟨hout, hstack⟩ := outside_above (by omega : 0x10000000 ≤ filename + i)
    exact ht.outside _ hout hstack
  · omega

end

/-- The geometry that was read. -/
theorem Accepted.blank_header {filename : Nat} {c : List UInt8} {q : FatPrivate}
    (h : Accepted (blankSys filename c) q) : q.header = ⟨1, 1, 2, 16, 1, 100, 41⟩ :=
  h.header.trans (blankSys_header filename c)

theorem Accepted.blank_ending {filename : Nat} {c : List UInt8} {q : FatPrivate}
    (h : Accepted (blankSys filename c) q) : q.rootDirectory.endingSectorPos = 4 := by
  rw [h.ending, blankSys_header]
  rfl

/-- On such a volume cluster 3 begins at byte 2560. -/
theorem clusterPos_three {q : FatPrivate} (hhead : q.header = ⟨1, 1, 2, 16, 1, 100, 41⟩)
    (hend : q.rootDirectory.endingSectorPos = 4) : clusterPos q 3 = 2560 := by
  unfold clusterPos fat16ClusterToSector
  rw [hhead, hend]
  rfl

/-- On the mounted volume a first write cannot go wrong. -/
theorem blank_fresh {filename : Nat} {c : List UInt8} {s : Sys} {q : FatPrivate}
    (hm : Mounted s q) (hacc : Accepted (blankSys filename c) q)
    (hata : s.ata = (blankSys filename c).ata) (hfree : (freeBlocks s.arena.heap).card ≠ 0) :
    Fresh s q := by
  have hhead := hacc.blank_header
  have hsize : fat16ClusterSize (s.disks primaryDisk) q = 512 := by
    rw [hm.clusterSize, hhead]
    rfl
  refine ⟨hfree, by omega, ?_, ?_, ?_, ?_, ?_, ?_, ?_⟩
  · rw [hata, hhead]
    change u16 (fun x => blankBootSector.getD x 0) 6 = 0
    decide
  · unfold OnDevice
    rw [hata, hhead]
    change 6 / 512 < 100
    omega
  · rw [hhead]
    change 3 < 2 ^ 23
    omega
  · rw [hata, hhead]
    change blankBootSector.getD 1536 0 = 0
    decide
  · rw [hata, hhead]
    change 3 < 100
    omega
  · unfold fat16EndCluster
    rw [hsize, hm.sectorPos, hhead]
    decide
  · rw [clusterPos_three hhead hacc.blank_ending, hata]
    change 2560 / 512 < 100
    omega

/-- The tables as `fs_init` leaves them. -/
def initFiles (s : Sys) : FileState FatFileDescriptor where
  sys := s
  fileSystems := Function.update (fun _ => none) 0 (some .fat16)
  fileDescriptors := fun _ => none

theorem fsInit_run (f : FileState FatFileDescriptor) : fsInit f = .ok () (initFiles f.sys) := rfl

/-! ## 2. Opening -/

section

variable {f : FileState FatFileDescriptor} {q : FatPrivate} {filename i : Nat} {c : List UInt8}

/-- Opening for writing makes a new file, in the first free slot. -/
theorem fsOpen_write_blank (h : OnBlank f.sys q filename c) (hfile : 0x10000000 ≤ filename)
    (hc : IsComponent c) (hlen : c.length ≤ 253) (hcard : 8 ≤ (freeBlocks f.sys.arena.heap).card)
    (hslot : freeSlot f = some i) : ∃ f' desc,
      fsOpen fileSystemOf filename .write f = .ok (i + 1) f' ∧ MadeFile f f' i desc := by
  obtain ⟨fd, f', hrun, rfl, desc, hmade⟩ := Runs.total (fsOpen_write_absent h.kernel h.mounted
    (h.pathString hfile hc) hc hlen (absent_of_empty h.empty c) hslot fun hbad =>
      absurd h.empty (hbad.resolve_left (by omega)))
  exact ⟨f', desc, hrun, hmade⟩

/-- Opening for reading finds no file, and answers NULL. -/
theorem fsOpen_read_blank (h : OnBlank f.sys q filename c) (hfile : 0x10000000 ≤ filename)
    (hc : IsComponent c) (hlen : c.length ≤ 253) (hcard : 8 ≤ (freeBlocks f.sys.arena.heap).card) :
    ∃ f', fsOpen fileSystemOf filename .read f = .ok 0 f' := by
  obtain ⟨fd, f', hrun, rfl⟩ := Runs.total (fsOpen_read_absent h.kernel h.mounted
    (h.pathString hfile hc) hc hlen (absent_of_empty h.empty c) fun hbad =>
      absurd h.empty (hbad.resolve_left (by omega)))
  exact ⟨f', hrun⟩

/-- The runs that counterexamples begin with: a blank volume has been mounted, and `0:/c` opened on it
for writing. -/
structure BlankFile (s : Sys) (f : FileState FatFileDescriptor) (q : FatPrivate) (filename : Nat)
    (c : List UInt8) (desc : FileDescriptor FatFileDescriptor) : Prop where
  mount : fat16Resolve primaryDisk (blankSys filename c) = .ok ok s
  before : OnBlank s q filename c
  opened : fsOpen fileSystemOf filename .write (initFiles s) = .ok 1 f
  made : MadeFile (initFiles s) f 0 desc
  blank : OnBlank f.sys q filename c
  accepted : Accepted (blankSys filename c) q
  ata : f.sys.ata = (blankSys filename c).ata
  card : 25587 ≤ (freeBlocks f.sys.arena.heap).card

theorem blank_file (hfile : 0x10000000 ≤ filename) (hc : IsComponent c) (hlen : c.length ≤ 253) :
    ∃ s f q desc, BlankFile s f q filename c desc := by
  obtain ⟨s, q, hmount, hblank, hacc, hata, hcard⟩ := blank_mounts hfile c
  obtain ⟨f, desc, hopen, hmade⟩ := fsOpen_write_blank (f := initFiles s) (i := 0) hblank hfile hc hlen
    (Nat.le_trans (by omega) hcard) (by simp [freeSlot, fsFreeSlotLoop, initFiles])
  have hcard' := hmade.card
  refine ⟨s, f, q, desc, hmount, hblank, hopen, hmade, hblank.quiet hfile hmade.reads.toQuiet, hacc,
    hmade.reads.ata.trans hata, ?_⟩
  change _ ≤ _ + 8 at hcard'
  change (freeBlocks s.arena.heap).card ≤ _ at hcard'
  omega

theorem BlankFile.fresh {s : Sys} {f : FileState FatFileDescriptor}
    {desc : FileDescriptor FatFileDescriptor} (h : BlankFile s f q filename c desc) : Fresh f.sys q :=
  blank_fresh h.blank.mounted h.accepted h.ata (by have := h.card; omega)

end

end KokoOs
