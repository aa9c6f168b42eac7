/-
# What runs write to the disk

Of all calls only a write changes the disk, and it changes its cluster, and, if it is the first one of
its item, the entry behind those of the root directory.  Both are behind the file allocation table.  So
in no run is a byte of the boot sector, of the reserved sectors or of the table ever written; the search
for a cluster finds the same one each time; and all items that a run adds to the root directory have
that cluster (`table_never_written`).

* **The volume.**  `SoundVolume` asks for a data cluster for each item that has one, and for one for
  new files.  `VolumeKept` is what runs keep of it: everything in front of the root directory, and
  its items, but for those that have been given the new cluster.
* **The files.**  The first cluster of an open file is one of three: none yet, the new one, or that
  of an item that the volume was mounted with (`KnownCluster`).
* **A move.**  `DiskKept.step` goes through the calls; a write is the case with something to show
  (`DiskKept.write`).
* **Where it writes.**  The bytes of the disk that a move may change are `WriteTarget`: those that a
  write is given, behind the beginning of the first cluster of its file, and for a first write the
  slot that is not used yet.  The data of a long write go on behind that cluster, whosever the next
  one is.

The volume that `boot.asm` itself describes is sound (`bootHeader_sound`).
-/
import KokoOs.FileCoherent
import KokoOs.FileRuns

namespace KokoOs

open Bytes Prog
open Runs (Run AllSteps)

/-! ## 1. The entry of a first write -/

section

variable {stop : Halt → Prop} {s s' : Sys} {p : FatPrivate}

/-- `fat16_get_next_item_position`, with the sectors it has read. -/
theorem getNextItemPosition_device (hk : KernelHeap s.arena) (hm : Mounted s p) :
    Runs (fun _ => True) (fat16GetNextItemPosition primaryDisk) s fun _ s' =>
      Reads ∅ stackRange s s' ∧ ∃ k, ScanEnd s.ata.image (rootPos p.header) k ∧
        ScanOnDevice s.ata.sectors (rootPos p.header) k := by
  unfold fat16GetNextItemPosition
  refine Runs.bind (diskOf_runs (Q := fun d s' => s' = s) rfl) ?_
  rintro d s' rfl
  refine Runs.bind (hm.fsPrivate_runs (Q := fun q s1 => q = p ∧ s1 = s') ⟨rfl, rfl⟩) ?_
  rintro q s1 ⟨rfl, rfl⟩
  refine Runs.bind (getTotalItems_scans hk hm fun _ _ => trivial) ?_
  rintro n s2 ⟨h2, -, k, -, -, hend, hdev⟩
  exact Runs.pure ⟨h2, k, hend, hdev⟩

/-- On a device of less than 4 GiB no position of a scan goes around. -/
theorem ScanEnd.item {image : Mem} {sectors pos k : Nat} (h : ScanEnd image pos k)
    (hdev : ScanOnDevice sectors pos k) (hpos : pos % 32 = 0) (hlt : pos < 2 ^ 32)
    (hsectors : sectors < 2 ^ 23) : ItemEnd image pos k := by
  have hfits : ∀ j ≤ k, pos + 32 * j < 512 * sectors := by
    intro j
    induction j with
    | zero =>
      intro hj
      have h0 := hdev 0 hj
      omega
    | succ j ih =>
      intro hj
      have hprev := ih (by omega)
      have hnext := hdev (j + 1) hj
      omega
  have hk := hfits k (Nat.le_refl k)
  refine ⟨by omega, ?_, fun j hj => ?_⟩
  · have hmarker := h.marker
    rwa [Nat.mod_eq_of_lt (by omega)] at hmarker
  · have hitem := h.items j hj
    have hfit := hfits j (Nat.le_of_lt hj)
    rwa [Nat.mod_eq_of_lt (by omega)] at hitem

/-- **A first write that returns has found the end of the root directory** in front of 4 GiB. -/
theorem fat16FirstWrite_end (hk : KernelHeap s.arena) (hm : Mounted s p) {item item' : FatItem}
    {c n : Nat} (hlen : item.item.length = 32) (haddr : item.itemAddress = blockAt c)
    (hc : Held s.arena c) (hsector : fat16RootDirectorySector p.header < 2 ^ 23)
    (hsectors : s.ata.sectors < 2 ^ 23)
    (h : fat16FirstWrite primaryDisk item n s = .ok item' s') :
    ∃ k, ItemEnd s.ata.image (rootPos p.header) k := by
  unfold fat16FirstWrite at h
  rw [bind_of_ok hm.fsPrivate_run] at h
  obtain ⟨cluster, s1, hcluster, h⟩ := (bind_ok_iff _ _ _ _ _).mp h
  obtain ⟨h1, -⟩ := Runs.value (getFreeCluster_runs hk hm n fun _ _ => trivial) hcluster
  obtain ⟨u, s2, hstore, h⟩ := (bind_ok_iff _ _ _ _ _).mp h
  have hc1 := h1.touches.held c (Set.notMem_empty c) hc
  rw [haddr] at hstore
  obtain ⟨h2, -, -⟩ := Runs.value (storeMem_runs h1.kernel hc1 fun x hx =>
    blit_of_not_mem (by rw [length_setLow16, hlen]; omega)) hstore
  obtain ⟨pos, s3, hnext, -⟩ := (bind_ok_iff _ _ _ _ _).mp h
  obtain ⟨-, k, hend, hdev⟩ := Runs.value
    (getNextItemPosition_device h2.kernel (h2.mounted (h1.mounted hm))) hnext
  rw [h2.image, h1.image] at hend
  rw [h2.sectors, h1.sectors] at hdev
  refine ⟨k, hend.item hdev ?_ ?_ hsectors⟩
  · unfold rootPos
    omega
  · unfold rootPos
    omega

/-- A first write begins with the search for a cluster and the new entry. -/
theorem fat16Write_first (hm : Mounted s p) {data : FatFileDescriptor} {input n : Nat}
    {r : Int × FatFileDescriptor} (hfile : data.item.type = .file)
    (hzero : data.item.item.low16BitsFirstCluster = 0)
    (h : fat16Write primaryDisk input data n s = .ok r s') :
    ∃ item s1, fat16FirstWrite primaryDisk data.item n s = .ok item s1 := by
  unfold fat16Write at h
  rw [if_neg (not_not.mpr hfile), bind_of_ok (diskOf_run s), bind_of_ok hm.fsPrivate_run, if_pos hzero] at h
  obtain ⟨item, s1, hfirst, -⟩ := (bind_ok_iff _ _ _ _ _).mp h
  exact ⟨item, s1, hfirst⟩

end

/-! ## 2. The volume in a run -/

/-- `fat16_end_cluster`, from the header. -/
def endCluster (header : FatHeader) : Nat :=
  (header.sectorsBig * 512 % 2 ^ 32 / (header.sectorsPerCluster * 512 % 2 ^ 32) + 2) % 2 ^ 16

theorem Mounted.endCluster_eq {s : Sys} {p : FatPrivate} (hm : Mounted s p) :
    fat16EndCluster (s.disks primaryDisk) p = endCluster p.header := by
  unfold fat16EndCluster fat16ClusterSize fat16SectorToAbsolutePos endCluster
  rw [hm.sectorSize]

/-- The cluster that the search gives if it ends in turn `j`. -/
def newCluster (header : FatHeader) (j : Nat) : Nat := searchResult (endCluster header) (turn 3 j)

/-- The search ends in turn `j`, and the words it looks at are in front of the root directory. -/
structure SearchInFront (image : Mem) (header : FatHeader) (j : Nat) : Prop where
  found : FreeAt image header 3 j
  front : ∀ i ≤ j, header.reservedSectors * (turn 3 i * 2) % 2 ^ 32 + 2 ≤ rootPos header

/-- A volume with a data cluster for each item of its root directory that has one, and with one for new
files. -/
structure SoundVolume (image : Mem) (header : FatHeader) (j : Nat) : Prop where
  layout : Layout header
  sector : fat16RootDirectorySector header < 2 ^ 23
  entries : header.rootDirEntries ≤ 4096
  clusters : ∀ k < header.rootDirEntries,
    (itemAt image (rootSlot header k)).low16BitsFirstCluster = 0 ∨
      DataCluster header (itemAt image (rootSlot header k)).low16BitsFirstCluster
  search : SearchInFront image header j
  fresh : DataCluster header (newCluster header j)

/-- What runs keep of a volume: everything in front of the root directory, and the items of that, but
for those that have been given cluster `c`. -/
structure VolumeKept (image image' : Mem) (header : FatHeader) (c : Nat) : Prop where
  front : ∀ x < rootPos header, image' x = image x
  slots : ∀ k < header.rootDirEntries,
    itemAt image' (rootSlot header k) = itemAt image (rootSlot header k) ∨
      (itemAt image' (rootSlot header k)).low16BitsFirstCluster = c

theorem VolumeKept.refl (image : Mem) (header : FatHeader) (c : Nat) :
    VolumeKept image image header c := ⟨fun _ _ => rfl, fun _ _ => Or.inl rfl⟩

section

variable {image image' image'' : Mem} {header : FatHeader} {c j k n pos : Nat}

/-- Bytes that are written behind the root directory. -/
theorem VolumeKept.store (h : VolumeKept image image' header c) (hl : Layout header)
    (hpos : 512 * dataSector header ≤ pos)
    (hother : ∀ x, ¬ (pos ≤ x ∧ x < pos + n) → image'' x = image' x) :
    VolumeKept image image'' header c := by
  have hregions := hl.regions
  refine ⟨fun x hx => (hother x (by omega)).trans (h.front x hx), fun k hk => ?_⟩
  have hsame : itemAt image'' (rootSlot header k) = itemAt image' (rootSlot header k) := by
    refine slice_congr fun i hi => hother _ ?_
    unfold rootSlot
    omega
  rw [hsame]
  exact h.slots k hk

/-- An item that is added. -/
theorem VolumeKept.add (h : VolumeKept image image' header c)
    (hother : ∀ x, ¬ (rootSlot header k ≤ x ∧ x < rootSlot header k + 32) → image'' x = image' x)
    (hitem : (itemAt image'' (rootSlot header k)).low16BitsFirstCluster = c) :
    VolumeKept image image'' header c := by
  refine ⟨fun x hx => (hother x ?_).trans (h.front x hx), fun i hi => ?_⟩
  · unfold rootSlot
    omega
  · by_cases hik : i = k
    · rw [hik]
      exact Or.inr hitem
    · have hsame : itemAt image'' (rootSlot header i) = itemAt image' (rootSlot header i) := by
        refine slice_congr fun x hx => hother _ ?_
        unfold rootSlot
        omega
      rw [hsame]
      exact h.slots i hi

/-- The search finds the same cluster again. -/
theorem SearchInFront.again (h : SearchInFront image header j)
    (hfront : ∀ x < rootPos header, image' x = image x) : FreeAt image' header 3 j := by
  have hword : ∀ i ≤ j, fatWord image' header (turn 3 i) = fatWord image header (turn 3 i) := by
    intro i hi
    have hin := h.front i hi
    exact u16_congr (hfront _ (by omega)) (hfront _ (by omega))
  refine ⟨(hword j (Nat.le_refl j)).trans h.found.word, fun i hi => ?_⟩
  rw [hword i (Nat.le_of_lt hi)]
  exact h.found.before i hi

end

/-! ## 3. Runs -/

/-- The first cluster of an open file: none yet, `c`, or that of an item that the volume was mounted
with. -/
def KnownCluster (p : FatPrivate) (c : Nat) (item : FatDirectoryItem) : Prop :=
  item.low16BitsFirstCluster = 0 ∨ item.low16BitsFirstCluster = c ∨
    ∃ x ∈ p.rootDirectory.loaded, item.low16BitsFirstCluster = x.low16BitsFirstCluster

/-- The invariant of all runs, with what it says about the disk. -/
structure DiskKept (image : Mem) (p : FatPrivate) (j : Nat) (f : FileState FatFileDescriptor) :
    Prop where
  working : Working f p
  device : f.sys.ata.sectors < 2 ^ 23
  volume : VolumeKept image f.sys.ata.image p.header (newCluster p.header j)
  files : ∀ i desc, f.fileDescriptors i = some desc →
    KnownCluster p (newCluster p.header j) desc.privateData.item.item

section

variable {f f' : FileState FatFileDescriptor} {p : FatPrivate} {image : Mem} {j fd n : Nat}
  {mode : FileMode}

/-- What the driver knows about the volume, with the clusters of the items it has loaded. -/
structure Known (image : Mem) (p : FatPrivate) (j : Nat) : Prop where
  sound : SoundVolume image p.header j
  laidOut : LaidOut p
  byte : p.header.sectorsPerCluster < 256
  clusters : ∀ x ∈ p.rootDirectory.loaded, x.low16BitsFirstCluster = 0 ∨
    DataCluster p.header x.low16BitsFirstCluster

theorem Known.readable (h : Known image p j) : Readable p := ⟨h.byte, h.laidOut.items⟩

/-- A cluster that is known is behind the root directory. -/
theorem Known.behind (h : Known image p j) {item : FatDirectoryItem}
    (hitem : KnownCluster p (newCluster p.header j) item) (hne : item.low16BitsFirstCluster ≠ 0) :
    512 * dataSector p.header ≤ clusterPos p item.low16BitsFirstCluster := by
  have hdata : DataCluster p.header item.low16BitsFirstCluster := by
    rcases hitem with hzero | hnew | ⟨x, hx, hsame⟩
    · exact absurd hzero hne
    · exact hnew ▸ h.sound.fresh
    · rw [hsame] at hne ⊢
      exact (h.clusters x hx).resolve_left hne
  rw [h.laidOut.layout.clusterPos_eq h.laidOut.ending hdata]
  exact Nat.le_add_right _ _

/-- The slots after one of them has changed. -/
theorem knownCluster_update {o : Option (FileDescriptor FatFileDescriptor)} {i c : Nat}
    (h : ∀ i desc, f.fileDescriptors i = some desc → KnownCluster p c desc.privateData.item.item)
    (ho : ∀ desc, o = some desc → KnownCluster p c desc.privateData.item.item) :
    ∀ k desc, Function.update f.fileDescriptors i o k = some desc →
      KnownCluster p c desc.privateData.item.item := by
  intro k desc hk
  by_cases hne : k = i
  · rw [hne, Function.update_self] at hk
    exact ho desc hk
  · rw [Function.update_of_ne hne] at hk
    exact h k desc hk

/-- Opening: the item is one of the root directory, or has no cluster. -/
theorem DiskKept.openFile (h : DiskKept image p j f) {filename : Nat} {bytes : List UInt8}
    (hpath : PathString f.sys.arena filename bytes)
    (hcall : fsOpen fileSystemOf filename mode f = .ok fd f') :
    ∀ i desc, f'.fileDescriptors i = some desc →
      KnownCluster p (newCluster p.header j) desc.privateData.item.item := by
  obtain ⟨root, a, hparse, hcase⟩ := fsOpen_ok hcall
  obtain ⟨ht, -⟩ := hpath.parse h.working.table.kernel hparse
  have hm : Mounted { f.sys with arena := a } p := (Reads.of_arena ht).mounted h.working.mounted
  rcases hcase with ⟨-, rfl⟩ | ⟨disk, fs, r, s, hasked, ⟨-, rfl⟩ |
    ⟨data, i, address, s', rfl, -, -, -, rfl⟩⟩
  · exact h.files
  · exact h.files
  · refine knownCluster_update h.files fun desc ho => ?_
    obtain rfl := Option.some_inj.mp ho
    obtain rfl := diskGet_some hasked.disk_eq
    cases fs
    rcases Runs.value (fat16Open_item ht.kernel hm _ _) hasked.answered data rfl with hin | hkoko
    · exact Or.inr (Or.inr ⟨_, hin, rfl⟩)
    · refine Or.inl ?_
      change data.item.item.low16BitsFirstCluster = 0
      rw [hkoko]
      decide

/-- A byte is one of the first slot of the root directory that is not used. -/
def InNewSlot (s : Sys) (header : FatHeader) (x : Nat) : Prop :=
  ∃ k, ItemEnd s.ata.image (rootPos header) k ∧ rootSlot header k ≤ x ∧ x < rootSlot header k + 32

/-- The bytes of the disk that a move may change: a write has the bytes that it is given behind the
beginning of the first cluster of its file, and, if the file has none, in the first slot that is not
used; the file is then given cluster `c`. -/
def WriteTarget (f : FileState FatFileDescriptor) (p : FatPrivate) (c : Nat) : KernelMove → Nat → Prop
  | .call (.write _ fd n), x => ∃ desc first, fsFindFileDescriptor f fd = some desc ∧
      (desc.privateData.item.item.low16BitsFirstCluster = first ∨
        (desc.privateData.item.item.low16BitsFirstCluster = 0 ∧ first = c)) ∧
      ((desc.privateData.item.item.low16BitsFirstCluster = 0 ∧ InNewSlot f.sys p.header x) ∨
        (clusterPos p first ≤ x ∧ x < clusterPos p first + n))
  | _, _ => False

/-- A first write adds an item with the new cluster, and nothing else. -/
theorem FirstWritten.adds {s s' : Sys} {item item' : FatItem} {c k : Nat}
    (h : FirstWritten s p item c item' s') (hm : Mounted s p) (hp : Known image p j)
    (hvol : VolumeKept image s.ata.image p.header (newCluster p.header j))
    (hlen : item.item.length = 32) (hend : ItemEnd s.ata.image (rootPos p.header) k) :
    item'.item.low16BitsFirstCluster = newCluster p.header j ∧
      VolumeKept image s'.ata.image p.header (newCluster p.header j) ∧
      ∀ x, ¬ InNewSlot s p.header x → s'.ata.image x = s.ata.image x := by
  obtain ⟨cluster, j', rfl, hat, hcluster⟩ := h.cluster
  -- the search has ended where it ends on the volume that was mounted
  obtain rfl := hat.unique (hp.sound.search.again hvol.front)
  rw [hm.endCluster_eq] at hcluster
  change cluster = newCluster p.header j' at hcluster
  obtain rfl := hcluster
  obtain ⟨pos, hpos, hentry, hslice⟩ := h.entry
  obtain rfl : pos = rootSlot p.header k := hpos k hend
  have hlow := low16_setLow16 hlen (searchResult_lt (turn_lt 3 j') : newCluster p.header j' < 2 ^ 16)
  refine ⟨hlow, hvol.add hentry ?_, fun x hx => hentry x fun hin => hx ⟨k, hend, hin⟩⟩
  unfold itemAt
  rw [hslice]
  exact hlow

/-- **Writing** puts bytes behind the root directory, and adds an item with the new cluster to it if
the file has none. -/
theorem DiskKept.write (h : DiskKept image p j f) (hp : Known image p j) {input : Nat} {code : Int}
    (hn : n < 2 ^ 32) (hcall : fsWrite fileSystemOf input fd n f = .ok code f') :
    DiskKept image p j f' ∧ ∀ x, f'.sys.ata.image x ≠ f.sys.ata.image x →
      WriteTarget f p (newCluster p.header j) (.call (.write input fd n)) x := by
  have hworking := (h.working.write hn hcall).working
  rcases fsWrite_ok hcall with ⟨-, -, rfl⟩ | ⟨-, ⟨-, -, rfl⟩ |
    ⟨desc, res, data, s', hfind, hw, -, rfl⟩⟩
  · exact ⟨h, fun x hx => absurd rfl hx⟩
  · exact ⟨h, fun x hx => absurd rfl hx⟩
  obtain ⟨-, -, hi⟩ := fsFind_slot hfind
  have hslot := h.working.table.slots _ _ hi
  have hm := h.working.mounted
  by_cases hfile : desc.privateData.item.type = .file
  · obtain ⟨base, e, d, b, c, hnew, hwritten⟩ := hslot.written h.working.table.kernel hm hn hfile hw
    have hsectors : s'.ata.sectors < 2 ^ 23 := hwritten.quiet.sectors ▸ h.device
    obtain ⟨item', s1, rfl, ⟨hne, rfl, rfl⟩ | ⟨hzero, h1⟩, hother⟩ := hwritten.written
    · -- the file has a cluster
      refine ⟨⟨hworking, hsectors, h.volume.store hp.laidOut.layout
        (hp.behind (h.files _ _ hi) hne) hother, knownCluster_update h.files fun desc' ho => ?_⟩,
        fun x hx => ⟨desc, _, hfind, Or.inl rfl, Or.inr ?_⟩⟩
      · obtain rfl := Option.some_inj.mp ho
        exact h.files _ _ hi
      · by_contra hout
        exact hx (hother x hout)
    · -- it is given one
      obtain ⟨item, s2, hfirst⟩ := fat16Write_first hm hfile hzero (by
        rw [hslot.disk] at hw
        cases hfs : desc.fs
        rw [hfs] at hw
        exact hw)
      obtain ⟨k, hend⟩ := fat16FirstWrite_end h.working.table.kernel hm hslot.length
        hnew.data.entryBlock (hnew.data.held c (by simp)).1 hp.sound.sector h.device hfirst
      obtain ⟨hlow, hadded, hslots⟩ := h1.adds hm hp h.volume hslot.length hend
      have hknown : KnownCluster p (newCluster p.header j) item'.item := Or.inr (Or.inl hlow)
      have hne : item'.item.low16BitsFirstCluster ≠ 0 := fun h0 =>
        absurd ((hlow.symm.trans h0) ▸ hp.sound.fresh.1) (by decide)
      refine ⟨⟨hworking, hsectors, hadded.store hp.laidOut.layout (hp.behind hknown hne) hother,
        knownCluster_update h.files fun desc' ho => ?_⟩,
        fun x hx => ⟨desc, _, hfind, Or.inr ⟨hzero, rfl⟩, ?_⟩⟩
      · obtain rfl := Option.some_inj.mp ho
        exact hknown
      · by_contra hout
        obtain ⟨hslot', hcluster⟩ := not_or.mp hout
        refine hx ((hother x ?_).trans (hslots x fun hin => hslot' ⟨hzero, hin⟩))
        rwa [hlow]
  · rw [hslot.disk] at hw
    cases hfs : desc.fs
    rw [hfs] at hw
    obtain ⟨hres, rfl⟩ := EStateM.Result.ok.inj ((fat16Write_directory hfile f.sys).symm.trans hw)
    obtain ⟨-, rfl⟩ := Prod.mk.inj hres
    refine ⟨⟨hworking, h.device, h.volume, knownCluster_update h.files fun desc' ho => ?_⟩,
      fun x hx => absurd rfl hx⟩
    obtain rfl := Option.some_inj.mp ho
    exact h.files _ _ hi

/-- A move that is no write leaves the disk alone, and the items of the table. -/
theorem DiskKept.still (h : DiskKept image p j f) (hworking : Working f' p)
    (hata : f'.sys.ata = f.sys.ata)
    (hfiles : ∀ i desc, f'.fileDescriptors i = some desc →
      KnownCluster p (newCluster p.header j) desc.privateData.item.item) : DiskKept image p j f' :=
  ⟨hworking, hata ▸ h.device, hata ▸ h.volume, hfiles⟩

/-- Reading leaves the table of open files alone. -/
theorem DiskKept.read (h : DiskKept image p j f) (hp : Readable p) (hworking : Working f' p)
    (hata : f'.sys.ata = f.sys.ata) {ptr size nmemb : Nat} {code : Int}
    (hown : size ≠ 0 → nmemb ≠ 0 → CallersBytes f.sys.arena ptr (nmemb * size))
    (hcall : fsRead fileSystemOf ptr fd size nmemb f = .ok code f') : DiskKept image p j f' := by
  refine h.still hworking hata ?_
  rcases fsRead_transfers h.working hp hown hcall with rfl | ⟨s, rfl, -⟩
  · exact h.files
  · exact h.files

/-- Seeking stores an open file with another position. -/
theorem DiskKept.seek (h : DiskKept image p j f) (hworking : Working f' p) {offset : Nat}
    {seekMode : SeekMode} {code : Int} (hcall : fsSeek fileSystemOf fd offset seekMode f = .ok code f') :
    DiskKept image p j f' := by
  rcases fsSeek_stores hcall with rfl | ⟨desc, hi, rfl⟩
  · exact h
  · refine h.still hworking rfl (knownCluster_update h.files fun desc' ho => ?_)
    obtain rfl := Option.some_inj.mp ho
    change KnownCluster p _ (fat16Seek desc.privateData offset seekMode).2.item.item
    rw [(fat16Seek_leaves desc.privateData offset seekMode).1]
    exact h.files _ _ hi

/-- Closing takes it out of the table. -/
theorem DiskKept.close (h : DiskKept image p j f) (hworking : Working f' p) {code : Int}
    (hcall : fsClose fileSystemOf fd f = .ok code f') : DiskKept image p j f' := by
  obtain ⟨-, -, hata⟩ := h.working.table.close h.working.mounted hcall
  refine h.still hworking hata ?_
  rcases fsClose_ok hcall with ⟨-, -, rfl⟩ | ⟨desc, fs, res, s, -, -, -, ⟨-, -, rfl⟩ |
    ⟨-, -, s', -, rfl⟩⟩
  · exact h.files
  · exact h.files
  · exact knownCluster_update h.files fun _ ho => by cases ho

/-- **One move.** -/
theorem DiskKept.step (h : DiskKept image p j f) (hp : Known image p j) {move : KernelMove}
    (hstep : KernelStep f move f') : DiskKept image p j f' := by
  have hworking := (hstep.keeps hp.readable h.working).working
  cases hstep with
  | @client T a ht hoff => exact h.still hworking rfl h.files
  | @call call ans f' hpromised hrun =>
    cases call with
    | openFile filename mode =>
      obtain ⟨bytes, hpath⟩ := hpromised
      obtain ⟨fd, hopen, -⟩ := (bind_pure_ok_iff _ _ _ _ _).mp hrun
      obtain ⟨-, -, hata⟩ := h.working.table.openFile h.working.mounted hpath hp.laidOut.items hopen
      exact h.still hworking hata (h.openFile hpath hopen)
    | read ptr fd size nmemb =>
      obtain ⟨code, hread, -⟩ := (bind_pure_ok_iff _ _ _ _ _).mp hrun
      rcases runCall_still hrun with hs | ⟨_, _, _, _, _, heq, -⟩
      · exact h.read hp.readable hworking hs.ata hpromised hread
      · cases heq
    | write input fd n =>
      obtain ⟨code, hwrite, -⟩ := (bind_pure_ok_iff _ _ _ _ _).mp hrun
      exact (h.write hp hpromised hwrite).1
    | seek fd offset mode =>
      obtain ⟨code, hseek, -⟩ := (bind_pure_ok_iff _ _ _ _ _).mp hrun
      exact h.seek hworking hseek
    | stat fd =>
      rcases fsStat_ok hrun with ⟨-, -, rfl⟩ | ⟨desc, fs, s, -, -, hs, rfl⟩
      · exact h
      · cases fs
        obtain ⟨-, rfl⟩ := (pure_ok_iff _ _ _ _).mp hs
        exact h
    | close fd =>
      obtain ⟨code, hclose, -⟩ := (bind_pure_ok_iff _ _ _ _ _).mp hrun
      exact h.close hworking hclose

/-- **What one move writes** to the disk. -/
theorem DiskKept.writes (h : DiskKept image p j f) (hp : Known image p j) {move : KernelMove}
    (hstep : KernelStep f move f') {x : Nat} (hx : f'.sys.ata.image x ≠ f.sys.ata.image x) :
    WriteTarget f p (newCluster p.header j) move x := by
  cases hstep with
  | client => exact absurd rfl hx
  | @call call ans f' hpromised hrun =>
    rcases runCall_still hrun with hs | ⟨input, fd, n, -, -, rfl, -⟩
    · rw [hs.ata] at hx
      exact absurd rfl hx
    · obtain ⟨code, hwrite, -⟩ := (bind_pure_ok_iff _ _ _ _ _).mp hrun
      exact (h.write hp hpromised hwrite).2 x hx

/-- Right after the mount of a sound volume. -/
theorem DiskKept.mount {s0 : Sys} (hk : KernelHeap s0.arena) (hid : (s0.disks primaryDisk).id = 0)
    (hsize : (s0.disks primaryDisk).sectorSize = 512) (hdevice : s0.ata.sectors < 2 ^ 23)
    (hvol : SoundVolume s0.ata.image (volumeHeader s0) j)
    (hmount : fat16Resolve primaryDisk s0 = .ok ok f.sys)
    (hempty : ∀ i, f.fileDescriptors i = none) :
    ∃ p, p.header = volumeHeader s0 ∧ Known s0.ata.image p j ∧ DiskKept s0.ata.image p j f := by
  obtain ⟨-, p, hm, hacc, ht, hata, -⟩ :=
    Runs.value (fat16Resolve_runs hk hid hsize fun _ _ => trivial) hmount
  have hnone : ∀ {P : Prop} {i desc}, f.fileDescriptors i = some desc → P := by
    intro P i desc hi
    rw [hempty i] at hi
    cases hi
  refine ⟨p, hacc.header, ⟨hacc.header ▸ hvol, hacc.laidOut hvol.layout, ?_, fun x hx => ?_⟩,
    ⟨.empty ht.kernel hempty, hm, fun _ _ hi => hnone hi⟩,
    ?_, ?_, fun _ _ hi => hnone hi⟩
  · rw [hacc.header]
    exact (s0.ata.image (0 + 13)).toNat_lt
  · obtain ⟨k, hk, hget⟩ := List.getElem_of_mem hx
    rw [hacc.root.length] at hk
    have hitem := hacc.root.loaded hvol.sector hvol.entries hk
    rw [List.getElem?_eq_getElem (by rw [hacc.root.length]; exact hk), hget] at hitem
    obtain rfl := Option.some_inj.mp hitem
    rw [hacc.header]
    exact hvol.clusters k hk
  · rw [hata]
    exact hdevice
  · rw [hata]
    exact VolumeKept.refl _ _ _

end

/-! ## 4. Volumes -/

/-- The header that `boot.asm` puts on the disk. -/
def bootHeader : FatHeader := ⟨128, 200, 2, 64, 256, 0x773594, 41⟩

/-- The clusters of this volume begin behind the root directory, and those up to 65531 end in front of
4 GiB. -/
theorem bootHeader_cluster {c : Nat} (h2 : 2 ≤ c) (hc : c ≤ 65531) : DataCluster bootHeader c := by
  have hstart : clusterStart bootHeader c = 366592 + (c - 2) * 65536 := by
    unfold clusterStart
    rw [show 512 * dataSector bootHeader = 366592 by decide,
      show clusterBytes bootHeader = 65536 by decide]
  refine ⟨h2, ?_⟩
  rw [hstart, show clusterBytes bootHeader = 65536 by decide]
  omega

/-- **The volume of the repository is sound** if the clusters of its items are clusters, and one of
the first 909 words that the driver looks at, 400 bytes from one to the next, is 0. -/
theorem bootHeader_sound {image : Mem} {j : Nat} (hj : 3 + j < 912)
    (hfree : FreeAt image bootHeader 3 j)
    (hclusters : ∀ k < 64, (itemAt image (rootSlot bootHeader k)).low16BitsFirstCluster = 0 ∨
      2 ≤ (itemAt image (rootSlot bootHeader k)).low16BitsFirstCluster ∧
        (itemAt image (rootSlot bootHeader k)).low16BitsFirstCluster ≤ 65531) :
    SoundVolume image bootHeader j := by
  have hturn : ∀ i ≤ j, turn 3 i = 3 + i := fun i hi => Nat.mod_eq_of_lt (by omega)
  refine ⟨⟨by decide, by decide, by decide⟩, by decide, by decide, fun k hk => ?_,
    ⟨hfree, fun i hi => ?_⟩, ?_⟩
  · exact (hclusters k hk).imp id fun h => bootHeader_cluster h.1 h.2
  · have hlt : 200 * ((3 + i) * 2) < 2 ^ 32 := by omega
    rw [hturn i hi, show rootPos bootHeader = 364544 by decide,
      show bootHeader.reservedSectors = 200 from rfl, Nat.mod_eq_of_lt hlt]
    omega
  · have hnew : newCluster bootHeader j = 3 + j := by
      unfold newCluster searchResult
      rw [hturn j (Nat.le_refl j), show endCluster bootHeader = 61037 by decide, if_neg (by omega)]
    rw [hnew]
    exact bootHeader_cluster (by omega) (by omega)

/-- There is nothing on the blank volume but the boot sector. -/
theorem blankSys_zero (filename : Nat) (name : List UInt8) {x : Nat} (hx : 39 ≤ x) :
    (blankSys filename name).ata.image x = 0 := by
  have hlen : blankBootSector.length = 39 := by decide
  exact List.getD_eq_default _ _ (by omega)

theorem blankSys_sound (filename : Nat) (name : List UInt8) :
    SoundVolume (blankSys filename name).ata.image (volumeHeader (blankSys filename name)) 0 := by
  rw [blankSys_header]
  refine ⟨⟨by decide, by decide, by decide⟩, by decide, by decide, fun k _ => Or.inl ?_,
    ⟨FreeAt.zero (by omega) ?_, fun i hi => ?_⟩, by unfold DataCluster; decide⟩
  · have hitem : itemAt (blankSys filename name).ata.image
        (rootSlot ⟨1, 1, 2, 16, 1, 100, 41⟩ k) = slice (fun _ => 0) 0 32 :=
      slice_congr fun i _ => blankSys_zero _ _ (by
        unfold rootSlot
        rw [show rootPos ⟨1, 1, 2, 16, 1, 100, 41⟩ = 1536 by decide]
        omega)
    rw [hitem]
    decide
  · change u16 (fun x => blankBootSector.getD x 0) 6 = 0
    decide
  · obtain rfl := Nat.le_zero.mp hi
    decide

/-- A blank volume has been mounted, and `0:/a` is in memory. -/
theorem blank_working : ∃ s p, OnBlank s p 0x10000000 [97] ∧ Readable p ∧ Working (initFiles s) p ∧
    25595 ≤ (freeBlocks s.arena.heap).card := by
  obtain ⟨s, q, hmount, hblank, -, -, hcard⟩ := blank_mounts (Nat.le_refl 0x10000000) [97]
  obtain ⟨p, -, hknown, hkept⟩ := DiskKept.mount (freshKernel_kernelHeap _) rfl rfl (by decide)
    (blankSys_sound 0x10000000 [97]) (f := initFiles s) hmount fun _ => rfl
  obtain rfl : q = p := Option.some_inj.mp (hblank.mounted.priv.symm.trans hkept.working.mounted.priv)
  exact ⟨s, q, hblank, hknown.readable, hkept.working, hcard⟩

end KokoOs
