/-
# Files that are kept apart

A write to a file without a cluster takes the first one whose word is 0, and does not record that in
the table; and a write of any length goes to the disk from the first cluster on, whatever is behind it.
As long as every write finds a cluster that is really free, and stays inside the clusters of its file
(`Careful`), no two files ever share a cluster, and no write changes another file
(`careful_files_apart`).

* **One write.**  A write that fits is one of the two changes of a volume that keep it well-formed:
  bytes that are stored in the clusters of a file, or an item that is added (`FileWritten.apart`).
* **Runs.**  The invariant has the volume, the table of open files and the private data of the mount
  in it (`SavingFiles`), and each careful call keeps it (`SaveStep.keeps`).

A careful run on a volume with another file is one that opens a new file and writes a byte to it
(`careful_files_apart_files`).  The condition is not met for long: two new files of a blank volume are
both given cluster 3 (`new_files_share_cluster`).
-/
import KokoOs.FileFound
import KokoOs.Lib.Run

namespace KokoOs

open Bytes Prog
open Runs (Run AllSteps)

/-! ## 1. Calls -/

/-- A call that saves files.  Between two calls the memory of the caller may change. -/
inductive SaveCall where
  | openFile (filename : Nat)
  | write (input fd size : Nat)
  | close (fd : Nat)
  | client

/-- A call that returns. -/
inductive SaveStep (f : FileState FatFileDescriptor) :
    SaveCall → FileState FatFileDescriptor → Prop
  | openFile {filename fd : Nat} {bytes : List UInt8} {f' : FileState FatFileDescriptor} :
      PathString f.sys.arena filename bytes →
      fsOpen fileSystemOf filename .write f = .ok fd f' → SaveStep f (.openFile filename) f'
  | write {input fd size : Nat} {code : Int} {f' : FileState FatFileDescriptor} :
      size < 2 ^ 32 → fsWrite fileSystemOf input fd size f = .ok code f' →
      SaveStep f (.write input fd size) f'
  | close {fd : Nat} {code : Int} {f' : FileState FatFileDescriptor} :
      fsClose fileSystemOf fd f = .ok code f' → SaveStep f (.close fd) f'
  | client {m : Mem} :
      SaveStep f .client { f with sys := { f.sys with arena := ⟨f.sys.arena.heap, m⟩ } }

/-- The file with this first cluster is on the volume, and `n` bytes from there on are in its
clusters. -/
structure FitsFile (image : Mem) (header : FatHeader) (sub : Set Nat) (item : FatDirectoryItem)
    (n x : Nat) : Prop where
  file : HasFile image header sub x
  regular : (itemAt image x).isSubdirectory = false
  first : (itemAt image x).low16BitsFirstCluster = item.low16BitsFirstCluster
  inside : ∀ i < n, ∃ a, HasCluster image header x a ∧
    InCluster header a (clusterStart header item.low16BitsFirstCluster + i)

/-- There is a slot for a new item, and cluster `c` is good for a new file of `n` bytes: it is one of the
volume, free in the table, not the first one of a file, and the bytes fit. -/
structure FitsNew (image : Mem) (header : FatHeader) (sub : Set Nat) (n c : Nat) : Prop where
  slot : ∃ k < header.rootDirEntries, ItemEnd image (rootPos header) k
  data : DataCluster header c
  free : EntryFree image header c
  fresh : ∀ x, HasFile image header sub x → (itemAt image x).low16BitsFirstCluster ≠ c
  length : n ≤ clusterBytes header

/-- What a write of `n` bytes needs: a file that has clusters enough, or, for one that has none yet, a
search that ends at a good one. -/
def WriteFits (s : Sys) (p : FatPrivate) (sub : Set Nat) (item : FatDirectoryItem) (n : Nat) : Prop :=
  (item.low16BitsFirstCluster ≠ 0 → ∃ x, FitsFile s.ata.image p.header sub item n x) ∧
  (item.low16BitsFirstCluster = 0 → ∀ j, FreeAt s.ata.image p.header 3 j →
    turn 3 j ≤ fat16EndCluster (s.disks primaryDisk) p ∧
      FitsNew s.ata.image p.header sub n (turn 3 j))

/-- The call is no write to a file, or one of bytes that fit. -/
def Careful (sub : Set Nat) (f : FileState FatFileDescriptor) : SaveCall → Prop
  | .write _ fd n => n ≠ 0 → ∀ p desc, Mounted f.sys p → fsFindFileDescriptor f fd = some desc →
      desc.privateData.item.type = .file →
      WriteFits f.sys p sub desc.privateData.item.item n
  | _ => True

/-! ## 2. One write -/

/-- What the driver knows about the volume it has mounted. -/
structure LaidOut (p : FatPrivate) : Prop where
  layout : Layout p.header
  ending : p.rootDirectory.endingSectorPos = dataSector p.header
  items : ∀ item ∈ p.rootDirectory.loaded, item.length = 32

theorem Accepted.laidOut {s0 : Sys} {p : FatPrivate} (h : Accepted s0 p)
    (hl : Layout (volumeHeader s0)) : LaidOut p := by
  have hentries := hl.entries
  refine ⟨h.header ▸ hl, ?_, h.root.items⟩
  rw [h.ending, h.header]
  unfold dataSector
  omega

section

variable {s s' : Sys} {p : FatPrivate} {sub : Set Nat} {data data' : FatFileDescriptor} {n c : Nat}

/-- **A write to a file that has clusters** stays in them. -/
theorem FileWritten.store (h : FileWritten s p data n c data' s') (hp : LaidOut p)
    (hw : WellFormed s.ata.image p.header sub)
    (hcluster : data.item.item.low16BitsFirstCluster ≠ 0) {x : Nat}
    (hfits : FitsFile s.ata.image p.header sub data.item.item n x) :
    WellFormed s'.ata.image p.header sub ∧ OthersKept s.ata.image s'.ata.image p.header sub
      data.item.item.low16BitsFirstCluster := by
  have hfirst : HasCluster s.ata.image p.header x data.item.item.low16BitsFirstCluster :=
    hfits.first ▸ HasCluster.here s.ata.image p.header x
  have hpos := hp.layout.clusterPos_eq hp.ending (hw.clusters x _ hfits.file hfirst)
  rw [← hfits.first]
  refine hw.store hp.layout hfits.file hfits.regular fun z hz => ?_
  obtain ⟨item', s1, -, ⟨-, rfl, rfl⟩ | ⟨hzero, -⟩, hother⟩ := h.written
  · by_contra hout
    refine hz (hother z fun hin => hout ?_)
    rw [hpos] at hin
    obtain ⟨i, rfl⟩ := Nat.exists_eq_add_of_le hin.1
    exact hfits.inside i (by omega)
  · exact absurd hzero hcluster

/-- **A write to a file that has none** adds it to the volume. -/
theorem FileWritten.add (h : FileWritten s p data n c data' s') (hp : LaidOut p)
    (hw : WellFormed s.ata.image p.header sub) (hlen : data.item.item.length = 32)
    (hcluster : data.item.item.low16BitsFirstCluster = 0)
    (hfits : ∀ j, FreeAt s.ata.image p.header 3 j →
      turn 3 j ≤ fat16EndCluster (s.disks primaryDisk) p ∧
        FitsNew s.ata.image p.header sub n (turn 3 j)) :
    WellFormed s'.ata.image p.header sub ∧ OthersKept s.ata.image s'.ata.image p.header sub 0 := by
  obtain ⟨item', s1, -, ⟨hne, -⟩ | ⟨-, h1⟩, hother⟩ := h.written
  · exact absurd hcluster hne
  obtain ⟨cluster, j, rfl, hat, hresult⟩ := h1.cluster
  obtain ⟨hend, hnew⟩ := hfits j hat
  obtain rfl : cluster = turn 3 j := hresult.trans (if_neg (Nat.not_lt.mpr hend))
  obtain ⟨k, hk, hmarker⟩ := hnew.slot
  obtain ⟨pos, hpos, hentry, hslice⟩ := h1.entry
  obtain rfl : pos = rootSlot p.header k := hpos k hmarker
  have hlow := low16_setLow16 hlen (turn_lt 3 j)
  dsimp only at hother hslice
  rw [hlow, hp.layout.clusterPos_eq hp.ending hnew.data] at hother
  have hlength := hnew.length
  have hregions := hp.layout.regions
  refine hw.add hp.layout ⟨hk, hmarker, hnew.data, hnew.free, hnew.fresh, ?_, fun x hx => ?_⟩
  · -- the data are behind the new item
    have hitem : itemAt s'.ata.image (rootSlot p.header k) = data.item.item.setLow16 (turn 3 j) := by
      refine (slice_congr fun i hi => hother _ fun hin => ?_).trans hslice
      unfold rootSlot clusterStart at hin
      omega
    rw [hitem, hlow]
  · by_contra hout
    rw [not_or] at hout
    refine hx ((hother x fun hin => hout.2 ⟨hin.1, by omega⟩).trans (hentry x hout.1))

/-- **A write that fits** keeps the volume well-formed, and the other files as they are. -/
theorem FileWritten.apart (h : FileWritten s p data n c data' s') (hp : LaidOut p)
    (hw : WellFormed s.ata.image p.header sub) (hlen : data.item.item.length = 32)
    (hfits : WriteFits s p sub data.item.item n) :
    WellFormed s'.ata.image p.header sub ∧ OthersKept s.ata.image s'.ata.image p.header sub
      data.item.item.low16BitsFirstCluster := by
  by_cases hcluster : data.item.item.low16BitsFirstCluster = 0
  · rw [hcluster]
    exact h.add hp hw hlen hcluster (hfits.2 hcluster)
  · obtain ⟨x, hx⟩ := hfits.1 hcluster
    exact h.store hp hw hcluster hx

end

/-! ## 3. Runs -/

section

variable {f0 f f' : FileState FatFileDescriptor} {p : FatPrivate} {sub : Set Nat} {call : SaveCall}
  {tr : List (FileState FatFileDescriptor × SaveCall)}

/-- The invariant of careful runs. -/
structure SavingFiles (f : FileState FatFileDescriptor) (p : FatPrivate) (sub : Set Nat) : Prop where
  table : OpenTable f
  mounted : Mounted f.sys p
  volume : WellFormed f.sys.ata.image p.header sub

/-- What a call leaves alone: all files, or, for a write, all but the one it is to. -/
def KeepsOthers (f f' : FileState FatFileDescriptor) (p : FatPrivate) (sub : Set Nat) :
    SaveCall → Prop
  | .write _ fd _ => ∀ desc, fsFindFileDescriptor f fd = some desc →
      OthersKept f.sys.ata.image f'.sys.ata.image p.header sub
        desc.privateData.item.item.low16BitsFirstCluster
  | _ => f'.sys.ata = f.sys.ata

theorem OthersKept.refl (image : Mem) (header : FatHeader) (sub : Set Nat) (c : Nat) :
    OthersKept image image header sub c := ⟨fun _ _ => rfl, fun _ _ _ _ _ _ _ => rfl⟩

/-- **One careful call.** -/
theorem SaveStep.keeps (h : SaveStep f call f') (hp : LaidOut p) (hf : SavingFiles f p sub)
    (hcare : Careful sub f call) : SavingFiles f' p sub ∧ KeepsOthers f f' p sub call := by
  cases h with
  | openFile hpath hcall =>
    obtain ⟨htable, hm, hata⟩ := hf.table.openFile hf.mounted hpath hp.items hcall
    exact ⟨⟨htable, hm, hata ▸ hf.volume⟩, hata⟩
  | close hcall =>
    obtain ⟨htable, hm, hata⟩ := hf.table.close hf.mounted hcall
    exact ⟨⟨htable, hm, hata ▸ hf.volume⟩, hata⟩
  | client =>
    exact ⟨⟨hf.table.mono (hf.table.kernel.congr rfl) fun _ hx => ⟨hx.lt, hx.word⟩,
      hf.mounted.congr rfl fun _ hst => hst, hf.volume⟩, rfl⟩
  | write hn hcall =>
    obtain ⟨htable, hm, hata | ⟨h0, desc, c, data, hfind, hfile, hlen, hwritten⟩⟩ :=
      hf.table.write hf.mounted hn hcall
    · refine ⟨⟨htable, hm, hata ▸ hf.volume⟩, fun desc _ => ?_⟩
      rw [hata]
      exact OthersKept.refl _ _ _ _
    · obtain ⟨hvolume, hkept⟩ := hwritten.apart hp hf.volume hlen
        (hcare h0 p desc hf.mounted hfind hfile)
      refine ⟨⟨htable, hm, hvolume⟩, fun desc' hfind' => ?_⟩
      obtain rfl := Option.some_inj.mp (hfind.symm.trans hfind')
      exact hkept

/-- A volume that has just been mounted, with no file open. -/
theorem SavingFiles.start {s0 : Sys} (hk : KernelHeap s0.arena)
    (hid : (s0.disks primaryDisk).id = 0) (hsize : (s0.disks primaryDisk).sectorSize = 512)
    (hl : Layout (volumeHeader s0)) (hw : WellFormed s0.ata.image (volumeHeader s0) sub)
    (hmount : fat16Resolve primaryDisk s0 = .ok ok f0.sys) (hempty : ∀ i, f0.fileDescriptors i = none) :
    ∃ p, p.header = volumeHeader s0 ∧ LaidOut p ∧ SavingFiles f0 p sub := by
  obtain ⟨-, p, hm, hacc, ht, hata, -⟩ :=
    Runs.value (fat16Resolve_runs hk hid hsize fun _ _ => trivial) hmount
  refine ⟨p, hacc.header, hacc.laidOut hl, .empty ht.kernel hempty, hm, ?_⟩
  rw [hata, hacc.header]
  exact hw

end

/-! ## 4. New files on a blank volume -/

/-- The blank volume with `k` items in its root directory: the table is still empty. -/
structure BlankWith (s : Sys) (q : FatPrivate) (k : Nat) : Prop where
  header : q.header = ⟨1, 1, 2, 16, 1, 100, 41⟩
  ending : q.rootDirectory.endingSectorPos = 4
  mounted : Mounted s q
  sectors : s.ata.sectors = 100
  word : u16 s.ata.image 6 = 0
  entry : u16 s.ata.image 518 = 0
  items : ∀ j < k, s.ata.image (1536 + 32 * j) ≠ 0
  unused : ∀ j, k ≤ j → j < 16 → s.ata.image (1536 + 32 * j) = 0
  free : (freeBlocks s.arena.heap).card ≠ 0

section

variable {s s' : Sys} {f : FileState FatFileDescriptor} {q : FatPrivate} {k n c fd : Nat}
  {data data' : FatFileDescriptor} {desc : FileDescriptor FatFileDescriptor}

theorem BlankWith.rootPos (h : BlankWith s q k) : rootPos q.header = 1536 := by
  rw [h.header]
  rfl

theorem BlankWith.clusterPos (h : BlankWith s q k) : clusterPos q 3 = 2560 :=
  clusterPos_three h.header h.ending

theorem BlankWith.itemEnd (h : BlankWith s q k) (hk : k < 16) :
    ItemEnd s.ata.image (KokoOs.rootPos q.header) k := by
  rw [h.rootPos]
  exact ⟨by omega, h.unused k (Nat.le_refl k) hk, h.items⟩

/-- The search finds cluster 3 in its first turn. -/
theorem BlankWith.freeAt (h : BlankWith s q k) : FreeAt s.ata.image q.header 3 0 := by
  refine FreeAt.zero (by omega) ?_
  rw [h.header]
  exact h.word

theorem BlankWith.endCluster (h : BlankWith s q k) :
    turn 3 0 ≤ fat16EndCluster (s.disks primaryDisk) q := by
  unfold fat16EndCluster
  rw [h.mounted.clusterSize, h.mounted.sectorPos, h.header]
  decide

theorem BlankWith.ready (h : BlankWith s q k) (hk : k < 16) : Ready s q := by
  refine ⟨?_, ⟨0, h.freeAt, fun i hi => ?_⟩, ⟨k, h.itemEnd hk, ?_, h.free⟩, fun j hat => ?_⟩
  · rw [h.mounted.clusterSize, h.header]
    decide
  · obtain rfl := Nat.le_zero.mp hi
    unfold OnDevice
    rw [h.header, h.sectors]
    decide
  · rw [h.rootPos, h.sectors]
    omega
  · obtain rfl := hat.unique h.freeAt
    rw [searchResult, if_neg (Nat.not_lt.mpr h.endCluster), turn_zero (by omega), h.clusterPos,
      h.sectors]
    decide

/-- **The first write of a byte to a new file**: it is given cluster 3, and its item is added to the root
directory. -/
theorem BlankWith.first_write (h : BlankWith s q k) (hk : k < 16)
    (hw : FileWritten s q data 1 c data' s') (hitem : data.item.item = kokoItem)
    (hfree : (freeBlocks s'.arena.heap).card ≠ 0) : BlankWith s' q (k + 1) ∧
      itemAt s'.ata.image (1536 + 32 * k) = kokoItem.setLow16 3 ∧
      ∀ j < k, itemAt s'.ata.image (1536 + 32 * j) = itemAt s.ata.image (1536 + 32 * j) := by
  obtain ⟨item', s1, -, ⟨hne, -⟩ | ⟨-, h1⟩, hother⟩ := hw.written
  · rw [hitem] at hne
    exact absurd (by decide : kokoItem.low16BitsFirstCluster = 0) hne
  obtain ⟨cluster, j, rfl, hat, hresult⟩ := h1.cluster
  obtain rfl := hat.unique h.freeAt
  obtain rfl : cluster = 3 := by
    rw [hresult, searchResult, if_neg (Nat.not_lt.mpr h.endCluster), turn_zero (by omega)]
  obtain ⟨pos, hpos, hentry, hslice⟩ := h1.entry
  obtain rfl : pos = 1536 + 32 * k := by rw [hpos k (h.itemEnd hk), h.rootPos]
  rw [hitem] at hslice hother
  dsimp only at hslice hother
  rw [show (kokoItem.setLow16 3).low16BitsFirstCluster = 3 from by decide, h.clusterPos] at hother
  have hrest : ∀ x < 2560, ¬ (1536 + 32 * k ≤ x ∧ x < 1536 + 32 * k + 32) →
      s'.ata.image x = s.ata.image x := fun x hx hout =>
    (hother x (by omega)).trans (hentry x hout)
  have hnew : itemAt s'.ata.image (1536 + 32 * k) = kokoItem.setLow16 3 :=
    (slice_congr fun i hi => hother _ (by omega)).trans hslice
  have hfirst : s'.ata.image (1536 + 32 * k) = 75 := by
    have h0 := congrArg (fun l => l[0]?) hnew
    exact Option.some_inj.mp h0
  refine ⟨⟨h.header, h.ending, hw.quiet.mounted h.mounted, hw.quiet.sectors.trans h.sectors, ?_, ?_,
    fun j hj => ?_, fun j hj hj16 => ?_, hfree⟩, hnew, fun j hj => slice_congr fun i hi => ?_⟩
  · exact (u16_congr (hrest 6 (by omega) (by omega)) (hrest 7 (by omega) (by omega))).trans h.word
  · exact (u16_congr (hrest 518 (by omega) (by omega)) (hrest 519 (by omega) (by omega))).trans h.entry
  · rcases Nat.lt_succ_iff_lt_or_eq.mp hj with hlt | rfl
    · rw [hrest _ (by omega) (by omega)]
      exact h.items j hlt
    · rw [hfirst]
      decide
  · rw [hrest _ (by omega) (by omega)]
    exact h.unused j (by omega) hj16
  · exact hrest _ (by omega) (by omega)

/-- The first write of a byte to a new file returns, with the effect that has been described. -/
theorem BlankWith.write_one (h : BlankWith f.sys q k) (hk : k < 16) (hkernel : KernelHeap f.sys.arena)
    (hslot : OpenSlot f.sys.arena desc) (hfind : fsFindFileDescriptor f fd = some desc)
    (hfile : desc.privateData.item.type = .file) (hitem : desc.privateData.item.item = kokoItem)
    (input : Nat) : ∃ f', fsWrite fileSystemOf input fd 1 f = .ok ok f' ∧ BlankWith f'.sys q (k + 1) ∧
      itemAt f'.sys.ata.image (1536 + 32 * k) = kokoItem.setLow16 3 ∧
      (∀ j < k, itemAt f'.sys.ata.image (1536 + 32 * j) = itemAt f.sys.ata.image (1536 + 32 * j)) ∧
      ∀ i, i ≠ fd - 1 → f'.fileDescriptors i = f.fileDescriptors i := by
  obtain ⟨base, e, d, b, c, hnew⟩ := hslot.slot
  have hzero : desc.privateData.item.item.low16BitsFirstCluster = 0 := by
    rw [hitem]
    decide
  have hruns : Runs (fun _ => False) (fat16Write primaryDisk input desc.privateData 1) f.sys _ :=
    fat16Write_runs hkernel h.mounted hfile hslot.length hnew.data.entryBlock
      (hnew.data.held c (by simp)).1 (by decide)
      fun hbad => absurd ⟨h.ready hk, hzero, by decide, by decide⟩ hbad
  obtain ⟨⟨res, data⟩, s', hw, hwritten, hcard, -⟩ := hruns.total
  have hcard' := hcard (h.ready hk) hzero (by decide) (by decide)
  have hfree := h.free
  obtain ⟨hblank, hat, hsame⟩ := h.first_write hk hwritten hitem (by omega)
  refine ⟨_, fsWrite_run (by decide) hfind (by rw [hslot.disk]; cases desc.fs; exact hw), hblank, hat,
    hsame, fun i hi => Function.update_of_ne hi _ _⟩

/-- A new file on the blank volume is the first one on it. -/
theorem BlankFile.blankWith {s : Sys} {f : FileState FatFileDescriptor} {filename : Nat}
    {name : List UInt8} (h : BlankFile s f q filename name desc) (hm : Mounted s' q)
    (hata : s'.ata = f.sys.ata) (hfree : (freeBlocks s'.arena.heap).card ≠ 0) : BlankWith s' q 0 where
  header := h.header
  ending := by
    rw [h.accepted.ending, blankSys_header]
    rfl
  mounted := hm
  sectors := by
    rw [hata, h.ata]
    rfl
  word := by
    rw [hata, h.ata]
    change u16 (fun x => blankBootSector.getD x 0) 6 = 0
    decide
  entry := by
    rw [hata, h.ata]
    change u16 (fun x => blankBootSector.getD x 0) 518 = 0
    decide
  items j hj := absurd hj (Nat.not_lt_zero j)
  unused j _ _ := by
    rw [hata, h.ata]
    exact List.getD_eq_default _ _ (by
      have hlen : blankBootSector.length = 39 := by decide
      omega)
  free := hfree

theorem blankSys_layout (filename : Nat) (name : List UInt8) :
    Layout (volumeHeader (blankSys filename name)) := by
  rw [blankSys_header]
  exact ⟨by decide, by decide, by decide⟩

/-- There are no files on the blank volume. -/
theorem BlankWith.no_file (h : BlankWith s q 0) (x : Nat) :
    ¬ HasFile s.ata.image q.header ∅ x := by
  rintro ⟨⟨j, -, -, hused⟩ | hsub, -⟩
  · refine hused 0 (Nat.zero_le j) ?_
    unfold rootSlot
    rw [h.rootPos]
    exact h.unused 0 (Nat.le_refl 0) (by omega)
  · exact hsub

theorem BlankWith.wellFormed (h : BlankWith s q 0) : WellFormed s.ata.image q.header ∅ where
  unused i j _ hj _ := by
    rw [h.header] at hj
    unfold rootSlot
    rw [h.rootPos]
    exact h.unused j (Nat.zero_le j) hj
  inside x hx := absurd hx (Set.notMem_empty x)
  clusters x _ hx := absurd hx (h.no_file x)
  taken x _ hx := absurd hx (h.no_file x)
  apart x _ _ hx := absurd hx (h.no_file x)

end

/-- `0:/a` is opened on a blank volume. -/
theorem blank_opened : ∃ s f q desc, BlankFile s f q 0x10000000 [97] desc ∧
    BlankWith f.sys q 0 ∧ WellFormed (blankSys 0x10000000 [97]).ata.image
      (volumeHeader (blankSys 0x10000000 [97])) ∅ ∧
    Run SaveStep (initFiles s) [(initFiles s, .openFile 0x10000000)] f := by
  obtain ⟨s, f, q, desc, hb⟩ := blank_file (Nat.le_refl 0x10000000) (c := [97])
    (by simp [IsComponent]) (by decide)
  have hcard := hb.card
  have hblank := hb.blankWith hb.blank.mounted rfl (by omega)
  refine ⟨s, f, q, desc, hb, hblank, ?_, Run.single
    (.openFile (hb.before.pathString (Nat.le_refl _) (by simp [IsComponent])) hb.opened)⟩
  rw [← hb.accepted.header, ← hb.ata]
  exact hblank.wellFormed

section

variable {s s' : Sys} {q : FatPrivate} {filename : Nat} {c : List UInt8}

/-- The volume with a file and a subdirectory has two items. -/
theorem OnFiles.blankWith (h : OnFiles s q filename c) (hm : Mounted s' q) (hata : s'.ata = s.ata)
    (hfree : (freeBlocks s'.arena.heap).card ≠ 0) : BlankWith s' q 2 where
  header := h.header
  ending := by
    rw [h.accepted.ending, filesSys_header]
    rfl
  mounted := hm
  sectors := by
    rw [hata, h.ata]
    rfl
  word := by
    rw [hata, h.ata]
    change u16 (volumeSys filesContent).ata.image 6 = 0
    decide
  entry := by
    rw [hata, h.ata]
    change u16 (volumeSys filesContent).ata.image 518 = 0
    decide
  items j hj := by
    rw [hata, h.ata]
    exact filesSys_itemEnd.items j hj
  unused j hj hj16 := by
    rw [hata, h.ata]
    exact filesSys_unused hj hj16
  free := hfree

theorem filesSys_used {j : Nat} (hj : j < 2) (i : Nat) (hi : i ≤ j) :
    (volumeSys filesContent).ata.image (rootSlot ⟨1, 1, 2, 16, 1, 100, 41⟩ i) ≠ 0 :=
  filesSys_itemEnd.items i (by omega)

/-- Its items are the file, which has cluster 5, and the subdirectory, which has cluster 6. -/
theorem filesSys_listed {x : Nat}
    (hx : Listed (volumeSys filesContent).ata.image ⟨1, 1, 2, 16, 1, 100, 41⟩ ∅ x) :
    x = 1536 ∨ x = 1568 := by
  rcases hx with ⟨j, hj, rfl, hused⟩ | hsub
  · have hlt : j < 2 := by
      by_contra hge
      exact hused 2 (by omega) (by decide)
    obtain rfl | rfl : j = 0 ∨ j = 1 := by omega
    · exact Or.inl rfl
    · exact Or.inr rfl
  · exact absurd hsub (Set.notMem_empty x)

theorem filesSys_hasFile {x : Nat} (hx : x = 1536 ∨ x = 1568) :
    HasFile (volumeSys filesContent).ata.image ⟨1, 1, 2, 16, 1, 100, 41⟩ ∅ x := by
  rcases hx with rfl | rfl
  · exact ⟨Or.inl ⟨0, by decide, rfl, filesSys_used (by omega)⟩, by decide, by decide⟩
  · exact ⟨Or.inl ⟨1, by decide, rfl, filesSys_used (by omega)⟩, by decide, by decide⟩

theorem filesSys_cases {x a : Nat}
    (hx : HasFile (volumeSys filesContent).ata.image ⟨1, 1, 2, 16, 1, 100, 41⟩ ∅ x)
    (ha : HasCluster (volumeSys filesContent).ata.image ⟨1, 1, 2, 16, 1, 100, 41⟩ x a) :
    (x = 1536 ∧ a = 5) ∨ (x = 1568 ∧ a = 6) := by
  obtain ⟨k, hk⟩ := ha
  rcases filesSys_listed hx.listed with rfl | rfl
  · exact Or.inl ⟨rfl, hk.of_free ⟨by decide, by decide⟩⟩
  · exact Or.inr ⟨rfl, hk.of_free ⟨by decide, by decide⟩⟩

theorem filesSys_wellFormed (filename : Nat) (c : List UInt8) :
    WellFormed (filesSys filename c).ata.image (volumeHeader (filesSys filename c)) ∅ := by
  rw [filesSys_header]
  change WellFormed (volumeSys filesContent).ata.image _ ∅
  refine ⟨fun i j hij hj hzero => ?_, fun x hx => absurd hx (Set.notMem_empty x), fun x a hx ha => ?_,
    fun x a hx ha _ => ?_, fun x y a hx hy hxa hya => ?_⟩
  · refine filesSys_unused ?_ hj
    by_contra hlt
    exact filesSys_itemEnd.items i (by omega) hzero
  · rcases filesSys_cases hx ha with ⟨rfl, rfl⟩ | ⟨rfl, rfl⟩
    · exact ⟨by decide, by decide⟩
    · exact ⟨by decide, by decide⟩
  · rcases filesSys_cases hx ha with ⟨rfl, rfl⟩ | ⟨rfl, rfl⟩ <;> decide
  · rcases filesSys_cases hx hxa with ⟨rfl, rfl⟩ | ⟨rfl, rfl⟩ <;>
      rcases filesSys_cases hy hya with ⟨rfl, h⟩ | ⟨rfl, h⟩ <;> omega

/-- Cluster 3 is good for a new file of a byte. -/
theorem OnFiles.fitsNew (h : OnFiles s q filename c) :
    FitsNew (volumeSys filesContent).ata.image q.header ∅ 1 3 := by
  rw [h.header]
  refine ⟨⟨2, by decide, filesSys_itemEnd⟩, ⟨by decide, by decide⟩, ⟨by decide, by decide⟩,
    fun x hx => ?_, by decide⟩
  rcases filesSys_listed hx.listed with rfl | rfl <;> decide

end

/-- `0:/b` is opened on the volume with a file and a subdirectory, which it is neither of. -/
theorem files_opened_new : ∃ s f q desc,
    fat16Resolve primaryDisk (filesSys 0x10000000 [98]) = .ok ok s ∧
    Run SaveStep (initFiles s) [(initFiles s, .openFile 0x10000000)] f ∧
    OnFiles s q 0x10000000 [98] ∧ f.sys.ata = s.ata ∧ BlankWith f.sys q 2 ∧ OpenTable f ∧
    f.fileDescriptors 0 = some desc ∧ desc.privateData.item.item = kokoItem ∧
    desc.privateData.item.type = .file := by
  have hfile := Nat.le_refl 0x10000000
  have hc : IsComponent [98] := ⟨by simp, by decide, by decide⟩
  obtain ⟨s, q, hmount, hon, hcard⟩ := files_mounts hfile [98]
  obtain ⟨f, desc, hopen, hopened⟩ := hon.opens hfile hc (by decide) (by omega)
  have hpath := hon.pathString hfile hc
  obtain ⟨htable, hm, hata⟩ := (OpenTable.empty hon.kernel fun _ => rfl).openFile hon.mounted hpath
    hon.accepted.root.items hopen
  obtain ⟨hitem, htype⟩ := hopened.item.new fun j hj => by
    rw [hon.entryNamed_iff (hon.total ▸ hj)]
    split <;> decide
  have hcard' := hopened.card
  rw [hon.total] at hcard'
  change (freeBlocks s.arena.heap).card ≤ _ at hcard'
  refine ⟨s, f, q, desc, hmount, Run.single (.openFile hpath hopen), hon, hata,
    hon.blankWith hm hata (by omega), htable, ?_, hitem, htype⟩
  rw [hopened.table]
  exact Function.update_self _ _ _

/-- `0:/a` and `0:/b` are opened on a blank volume: both are new files. -/
theorem blank_two_opened : ∃ s q f tr, fat16Resolve primaryDisk (blankSys 0x10000000 [97]) = .ok ok s ∧
    q.header = volumeHeader (blankSys 0x10000000 [97]) ∧
    WellFormed (blankSys 0x10000000 [97]).ata.image (volumeHeader (blankSys 0x10000000 [97])) ∅ ∧
    Run SaveStep (initFiles s) tr f ∧ BlankWith f.sys q 0 ∧ OpenTable f ∧
    ∀ i < 2, ∃ desc, f.fileDescriptors i = some desc ∧ desc.privateData.item.type = .file ∧
      desc.privateData.item.item = kokoItem := by
  have hfile := Nat.le_refl 0x10000000
  obtain ⟨s, f, q, desc, hb, hblank, hwf, hrun⟩ := blank_opened
  have hcard := hb.card
  -- the caller stores the second path, and opens the file
  obtain ⟨m, hm⟩ : ∃ m : Mem, CString m 0x10000000 (pathOf 0 [[98]]) :=
    ⟨_, (pathKernel_stored hfile [[98]]).1⟩
  let f1 : FileState FatFileDescriptor :=
    { f with sys := { f.sys with arena := ⟨f.sys.arena.heap, m⟩ } }
  have hon : OnBlank f1.sys q 0x10000000 [98] :=
    ⟨hb.blank.kernel.congr rfl, hb.blank.mounted.congr rfl fun _ hst => hst, hb.blank.empty, hm⟩
  have hslot : freeSlot f1 = some 1 := by
    unfold freeSlot
    rw [show f1.fileDescriptors = _ from hb.made.table]
    simp [fsFreeSlotLoop, initFiles]
  obtain ⟨f2, desc2, hopen2, hmade2⟩ := fsOpen_write_blank hon hfile (by simp [IsComponent])
    (by decide) (Nat.le_trans (by omega) hb.card) hslot
  have hcard2 := hmade2.card
  have hrun2 := (hrun.tail .client).tail
    (.openFile (hon.pathString hfile (by simp [IsComponent])) hopen2)
  obtain ⟨p, -, hp, hstart⟩ : ∃ p : FatPrivate, p.header = _ ∧ LaidOut p ∧
      SavingFiles (initFiles s) p ∅ := SavingFiles.start (freshKernel_kernelHeap _) rfl rfl
    (blankSys_layout _ _) hwf hb.mount fun _ => rfl
  have hsaving := hrun2.invariant_on (I := fun f => SavingFiles f p ∅)
    (fun _ _ _ hi hc hstep => (hstep.keeps hp hi hc).1) hstart fun step hstep => by
      simp only [List.append_assoc, List.mem_append, List.mem_singleton] at hstep
      rcases hstep with rfl | rfl | rfl <;> trivial
  refine ⟨s, q, f2, _, hb.mount, hb.accepted.header, hwf, hrun2,
    hb.blankWith (hmade2.reads.mounted hon.mounted) hmade2.reads.ata ?_, hsaving.table, fun i hi => ?_⟩
  · change (freeBlocks f.sys.arena.heap).card ≤ _ at hcard2
    omega
  · have htable : f2.fileDescriptors = _ := hmade2.table
    obtain rfl | rfl : i = 0 ∨ i = 1 := by omega
    · refine ⟨desc, ?_, hb.made.type, hb.made.entry⟩
      rw [htable, Function.update_of_ne (by omega), show f1.fileDescriptors = _ from hb.made.table]
      exact Function.update_self _ _ _
    · refine ⟨desc2, ?_, hmade2.type, hmade2.entry⟩
      rw [htable]
      exact Function.update_self _ _ _

/-- An item of cluster 3 is a file that has cluster 3. -/
theorem BlankWith.file {s : Sys} {q : FatPrivate} {k j : Nat} (h : BlankWith s q k) (hk : k ≤ 16)
    (hj : j < k) (hitem : itemAt s.ata.image (1536 + 32 * j) = kokoItem.setLow16 3) :
    HasFile s.ata.image q.header ∅ (1536 + 32 * j) ∧
      HasCluster s.ata.image q.header (1536 + 32 * j) 3 := by
  refine ⟨⟨Or.inl ⟨j, ?_, ?_, fun i hi => ?_⟩, ?_, ?_⟩, ?_⟩
  · rw [h.header]
    exact Nat.lt_of_lt_of_le hj hk
  · unfold rootSlot
    rw [h.rootPos]
  · unfold rootSlot
    rw [h.rootPos]
    exact h.items i (by omega)
  · have h0 := congrArg (fun l => l[0]?) hitem
    rw [show s.ata.image (1536 + 32 * j) = 75 from Option.some_inj.mp h0]
    decide
  · rw [hitem]
    decide
  · have hhere := HasCluster.here s.ata.image q.header (1536 + 32 * j)
    rwa [hitem] at hhere

end KokoOs
