/-
# Writes that fail

`fs_write` drops the result of the file system, and `fat16_write` does not look at what its search for
a cluster and for a slot of the root directory have given.  So there are three ways for a write to a file
to fail: the stream refuses the data, there is no cluster on the volume (`NoCluster`), or the root
directory has no slot left (`NoSlot`).

* **Failing.**  A write fails exactly if it cannot be done (`writeFailed_iff`, `Writable`).
* **Reporting.**  The caller is told of nothing.  A call leaves no trace of a failure, and reports it,
  exactly if there was none or nothing was to be written (`fsWrite_no_trace_iff`).

A first write of 131072 bytes shows the worst of it: its data are refused, because 256 sectors are 0 in
eight bits, after the entry of the file has been put on the disk (`refused_write_leaves_entry`).
-/
import KokoOs.FileBlank

namespace KokoOs

open Bytes Prog

/-! ## 1. Descriptors of files -/

/-- `fd` is an open descriptor of the FAT16 driver: the clone of its entry is the object at block
`c`. -/
structure LiveFile (f : FileState FatFileDescriptor) (fd : Nat)
    (desc : FileDescriptor FatFileDescriptor) (c : Nat) : Prop where
  found : fsFindFileDescriptor f fd = some desc
  disk : desc.disk = primaryDisk
  length : desc.privateData.item.item.length = 32
  entry : desc.privateData.item.itemAddress = blockAt c
  held : Held f.sys.arena c

/-- A new file on a blank volume is one. -/
theorem BlankFile.live {s : Sys} {f : FileState FatFileDescriptor} {q : FatPrivate} {filename : Nat}
    {name : List UInt8} {desc : FileDescriptor FatFileDescriptor}
    (h : BlankFile s f q filename name desc) : ∃ c, LiveFile f 1 desc c := by
  obtain ⟨a, e, d, b, c, hslot⟩ := h.made.slot
  refine ⟨c, ?_, ?_, ?_, hslot.data.entryBlock, (hslot.data.held c (by simp)).1⟩
  · rw [fsFindFileDescriptor_eq, if_pos ⟨by omega, by omega⟩, h.made.table]
    exact Function.update_self _ _ _
  · exact h.made.disk
  · rw [h.made.entry]
    rfl

/-! ## 2. What failing is -/

section

variable {f f' : FileState FatFileDescriptor} {p : FatPrivate} {fd input n c : Nat} {code : Int}
  {desc : FileDescriptor FatFileDescriptor}

/-- The search for a cluster gives one behind the end of the volume. -/
def NoCluster (s : Sys) (p : FatPrivate) : Prop :=
  ∀ j, FreeAt s.ata.image p.header 3 j → fat16EndCluster (s.disks primaryDisk) p < turn 3 j

/-- The root directory has no slot left. -/
def NoSlot (s : Sys) (p : FatPrivate) : Prop :=
  ∀ k, ItemEnd s.ata.image (rootPos p.header) k → p.header.rootDirEntries ≤ k

/-- `fat16_write` has failed with `result`, or it has had to do without a cluster or a slot. -/
def WriteFailed (s : Sys) (p : FatPrivate) (data : FatFileDescriptor) (result : Int) : Prop :=
  result ≠ ok ∨ (data.item.type = .file ∧ data.item.item.low16BitsFirstCluster = 0 ∧
    (NoCluster s p ∨ NoSlot s p))

/-- A call from `f` to `f'` leaves no trace of a write of `fd`, and reports that. -/
def NoTrace (f f' : FileState FatFileDescriptor) (fd : Nat)
    (desc : FileDescriptor FatFileDescriptor) (code : Int) : Prop :=
  f'.sys.ata.image = f.sys.ata.image ∧
    (∃ desc', fsFindFileDescriptor f' fd = some desc' ∧
      desc'.privateData.item = desc.privateData.item) ∧ code ≠ ok

/-- A write of `n` bytes that can be done: to a file, of a number of sectors that is not 0 in eight
bits, and, if it is the first one of the file, with a cluster and a slot. -/
def Writable (s : Sys) (p : FatPrivate) (data : FatFileDescriptor) (n : Nat) : Prop :=
  data.item.type = .file ∧ diskStreamGetAffectedSectors n % 256 ≠ 0 ∧
    (data.item.item.low16BitsFirstCluster = 0 → ¬ NoCluster s p ∧ ¬ NoSlot s p)

/-- A write to something that is not a file is refused. -/
theorem fat16Write_directory {data : FatFileDescriptor} (h : data.item.type ≠ .file) (s : Sys) :
    fat16Write primaryDisk input data n s = .ok (invalidArgument, data) s := by
  unfold fat16Write
  rw [if_pos h]
  rfl

/-- **A write fails exactly if it cannot be done.** -/
theorem writeFailed_iff {s s' : Sys} {data data' : FatFileDescriptor} {result : Int}
    (hk : KernelHeap s.arena) (hm : Mounted s p) (hlen : data.item.item.length = 32)
    (haddr : data.item.itemAddress = blockAt c) (hc : Held s.arena c) (h0 : n ≠ 0) (hn : n < 2 ^ 32)
    (h : fat16Write primaryDisk input data n s = .ok (result, data') s') :
    WriteFailed s p data result ↔ ¬ Writable s p data n := by
  unfold WriteFailed Writable
  by_cases hfile : data.item.type = .file
  · have hcode := (Runs.value (fat16Write_runs hk hm hfile hlen haddr hc hn fun _ _ => trivial) h).2.2
    dsimp only at hcode
    constructor
    · rintro (hbad | ⟨-, hzero, hno⟩) ⟨-, hsectors, hfirst⟩
      · exact hbad (hcode.mpr ⟨h0, hsectors⟩)
      · rcases hno with hno | hno
        · exact (hfirst hzero).1 hno
        · exact (hfirst hzero).2 hno
    · intro hbad
      by_cases hres : result = ok
      · refine Or.inr ⟨hfile, ?_⟩
        by_contra hcon
        refine hbad ⟨hfile, (hcode.mp hres).2, fun hzero => ⟨fun hno => ?_, fun hno => ?_⟩⟩
        · exact hcon ⟨hzero, Or.inl hno⟩
        · exact hcon ⟨hzero, Or.inr hno⟩
      · exact Or.inl hres
  · rw [fat16Write_directory hfile] at h
    obtain ⟨heq, -⟩ := EStateM.Result.ok.inj h
    obtain ⟨rfl, -⟩ := Prod.mk.inj heq
    exact iff_of_true (Or.inl (by decide)) fun hw => hfile hw.1

/-! ## 3. The call -/

/-- **A write that fails leaves no trace and is reported, exactly if there is nothing to write or the
write can be done**: a failing one is never reported. -/
theorem fsWrite_no_trace_iff (hk : KernelHeap f.sys.arena) (hm : Mounted f.sys p)
    (hlive : LiveFile f fd desc c) (hn : n < 2 ^ 32)
    (h : fsWrite fileSystemOf input fd n f = .ok code f') :
    (∀ result data s', fat16Write primaryDisk input desc.privateData n f.sys = .ok (result, data) s' →
      WriteFailed f.sys p desc.privateData result → NoTrace f f' fd desc code) ↔
    n = 0 ∨ Writable f.sys p desc.privateData n := by
  rcases fsWrite_ok h with ⟨hbad, rfl, rfl⟩ | ⟨hgood, ⟨hnone, -⟩ | ⟨d, res, data, s, hfind, hw, rfl, rfl⟩⟩
  · -- nothing is written, and the call says so
    have h0 : n = 0 := hbad.resolve_right fun hle => by
      have hfound := hlive.found
      rw [fsFindFileDescriptor_eq, if_neg (by omega)] at hfound
      cases hfound
    exact iff_of_true (fun _ _ _ _ _ => ⟨rfl, ⟨desc, hlive.found, rfl⟩, by decide⟩) (Or.inl h0)
  · rw [hlive.found] at hnone
    cases hnone
  · obtain rfl : desc = d := Option.some_inj.mp (hlive.found.symm.trans hfind)
    have h0 : n ≠ 0 := fun h0 => hgood (Or.inl h0)
    rw [hlive.disk] at hw
    cases hfs : desc.fs
    rw [hfs] at hw
    change fat16Write primaryDisk input desc.privateData n f.sys = .ok (res, data) s at hw
    have hiff := writeFailed_iff hk hm hlive.length hlive.entry hlive.held h0 hn hw
    constructor
    · intro hprop
      by_contra hcon
      have hfail := hiff.mpr fun hwr => hcon (Or.inr hwr)
      exact (hprop res data s hw hfail).2.2 rfl
    · rintro (h0' | hwr) result data' s' hw' hfail
      · exact absurd h0' h0
      · rw [hw] at hw'
        obtain ⟨heq, -⟩ := EStateM.Result.ok.inj hw'
        obtain ⟨rfl, -⟩ := Prod.mk.inj heq
        exact absurd hwr (hiff.mp hfail)

end

/-! ## 4. A first write of 256 sectors -/

section

variable {s : Sys} {p : FatPrivate}

/-- On a fresh volume a first write returns even if its data are refused, as long as the heap has room
for them. -/
theorem fat16Write_fresh_returns (hk : KernelHeap s.arena) (hm : Mounted s p)
    {desc : FatFileDescriptor} {input n c : Nat} (hfile : desc.item.type = .file)
    (hlen : desc.item.item.length = 32) (haddr : desc.item.itemAddress = blockAt c)
    (hc : Held s.arena c) (hzero : desc.item.item.low16BitsFirstCluster = 0) (h0 : n ≠ 0)
    (hfresh : Fresh s p) (hrefused : diskStreamGetAffectedSectors n % 256 = 0)
    (hpos : 0 < blocksOf (localBufferSize n))
    (hcard : 25600 < 25600 / blocksOf (localBufferSize n) + (freeBlocks s.arena.heap).card) :
    ∃ r s', fat16Write primaryDisk input desc n s = .ok r s' := by
  have hruns : Runs (fun _ => False) (fat16Write primaryDisk input desc n) s fun _ _ => True := by
    unfold fat16Write
    rw [if_neg (not_not.mpr hfile)]
    refine Runs.bind (diskOf_runs (Q := fun _ s' => s' = s) rfl) ?_
    rintro d s' rfl
    refine Runs.bind (hm.fsPrivate_runs (Q := fun q s1 => q = p ∧ s1 = s') ⟨rfl, rfl⟩) ?_
    rintro q s ⟨rfl, rfl⟩
    rw [if_pos hzero]
    refine Runs.bind (fat16FirstWrite_runs hk hm hlen haddr hc n fun hbad =>
      absurd hfresh.ready hbad) ?_
    intro item' s1 h1
    have hcard1 := h1.card hfresh.ready
    refine Runs.bind (diskStreamSeek_runs h1.quiet.kernel _) ?_
    rintro - s2 ⟨-, h2, harena, -⟩
    have hd2 := h2.streams _ (h1.quiet.mounted hm).clusterStream
    obtain ⟨code, s3, hw⟩ : ∃ code s3, diskStreamWrite q.clusterReadStream input n s2 = .ok code s3 :=
      diskStreamWrite_returns h2.kernel hd2 h0 (Transferable.of_card h2.kernel hpos
        (by rw [harena]; omega) fun hne => absurd hrefused hne)
    refine Runs.bind (Runs.of_ok (Q := fun _ _ => True) hw trivial) ?_
    rintro res s4 -
    split
    · exact Runs.pure trivial
    · exact Runs.pure trivial
  obtain ⟨r, s', h, -⟩ := hruns.total
  exact ⟨r, s', h⟩

end

/-- 256 sectors are refused, in a buffer of 32 blocks. -/
theorem refused_131072 : diskStreamGetAffectedSectors 131072 % 256 = 0 ∧
    blocksOf (localBufferSize 131072) = 32 := by decide

/-- The file of the runs below: a new one on a blank volume. -/
theorem blank_live : ∃ s f q desc c, BlankFile s f q 0x10000000 [97] desc ∧ LiveFile f 1 desc c ∧
    desc.privateData.item.item.low16BitsFirstCluster = 0 := by
  obtain ⟨s, f, q, desc, hb⟩ := blank_file (Nat.le_refl 0x10000000) (c := [97])
    (by simp [IsComponent]) (by decide)
  obtain ⟨c, hlive⟩ := hb.live
  refine ⟨s, f, q, desc, c, hb, hlive, ?_⟩
  rw [hb.made.entry]
  decide

section

variable {s : Sys} {f : FileState FatFileDescriptor} {q : FatPrivate} {filename input n c : Nat}
  {name : List UInt8} {desc : FileDescriptor FatFileDescriptor}

theorem BlankFile.header (h : BlankFile s f q filename name desc) :
    q.header = ⟨1, 1, 2, 16, 1, 100, 41⟩ := h.accepted.blank_header

/-- The root directory begins at byte 1536, and cluster 3 at byte 2560. -/
theorem BlankFile.rootPos (h : BlankFile s f q filename name desc) : rootPos q.header = 1536 := by
  rw [h.header]
  rfl

theorem BlankFile.clusterPos (h : BlankFile s f q filename name desc) : clusterPos q 3 = 2560 :=
  clusterPos_three h.header h.accepted.blank_ending

/-- **Any write to the new file puts its entry on the disk**, whatever becomes of the data. -/
theorem BlankFile.entry (hb : BlankFile s f q filename name desc) (hlive : LiveFile f 1 desc c)
    (hzero : desc.privateData.item.item.low16BitsFirstCluster = 0) (hn : n < 2 ^ 32)
    {r : Int × FatFileDescriptor} {s' : Sys}
    (hw : fat16Write primaryDisk input desc.privateData n f.sys = .ok r s') :
    Mounted s' q ∧ s'.ata.image 1536 = 75 := by
  have hfresh := hb.fresh
  have hfw := (Runs.value (fat16Write_runs hb.blank.kernel hb.blank.mounted hb.made.type hlive.length
    hlive.entry hlive.held hn fun _ _ => trivial) hw).1
  refine ⟨hfw.quiet.mounted hb.blank.mounted, ?_⟩
  obtain ⟨item', s1, -, ⟨hne, -⟩ | ⟨-, h1⟩, hother⟩ := hfw.written
  · exact absurd hzero hne
  obtain ⟨cluster, j, rfl, hat, hcluster⟩ := h1.cluster
  obtain rfl := hat.unique hfresh.freeAt
  obtain rfl : cluster = 3 := hcluster.trans (if_neg (Nat.not_lt.mpr hfresh.cluster))
  obtain ⟨pos, hpos, -, hslice⟩ := h1.entry
  obtain rfl := hpos 0 ⟨by rw [hb.rootPos]; omega, hfresh.marker,
    fun j hj => absurd hj (Nat.not_lt_zero j)⟩
  -- the cluster is behind the root directory
  dsimp only at hother hslice
  rw [low16_setLow16 hlive.length (by decide), hb.clusterPos] at hother
  rw [hother 1536 (by omega)]
  have h0 := congrArg (fun l => l[0]?) hslice
  rw [hb.rootPos, hb.made.entry] at h0
  simp only [getElem?_setLow16 (by omega : 0 < 26)] at h0
  exact Option.some_inj.mp h0

/-- The first write of a byte returns. -/
theorem BlankFile.write_one (hb : BlankFile s f q filename name desc) (hlive : LiveFile f 1 desc c)
    (hzero : desc.privateData.item.item.low16BitsFirstCluster = 0) (input : Nat) :
    ∃ result data s', fat16Write primaryDisk input desc.privateData 1 f.sys =
      .ok (result, data) s' ∧ ∃ f', fsWrite fileSystemOf input 1 1 f = .ok ok f' ∧ f'.sys = s' := by
  have hruns : Runs (fun _ => False) (fat16Write primaryDisk input desc.privateData 1) f.sys
      fun _ _ => True := (fat16Write_runs hb.blank.kernel hb.blank.mounted hb.made.type hlive.length
    hlive.entry hlive.held (by decide) fun hbad => absurd
      ⟨hb.fresh.ready, hzero, by decide, by decide⟩ hbad).mono fun _ _ _ => trivial
  obtain ⟨⟨result, data⟩, s', hw, -⟩ := hruns.total
  exact ⟨result, data, s', hw, _, fsWrite_run (by decide) hlive.found
    (by rw [hlive.disk]; cases desc.fs; exact hw), rfl⟩

end

/-- The first write of a byte to a new file does not fail. -/
theorem fsWrite_no_trace_iff_blank : ∃ (f f' : FileState FatFileDescriptor) (p : FatPrivate)
    (desc : FileDescriptor FatFileDescriptor),
    fsWrite fileSystemOf 0x10000000 1 1 f = .ok ok f' ∧
    ∀ result data s', fat16Write primaryDisk 0x10000000 desc.privateData 1 f.sys =
        .ok (result, data) s' → WriteFailed f.sys p desc.privateData result →
      NoTrace f f' 1 desc ok := by
  obtain ⟨s, f, q, desc, c, hb, hlive, hzero⟩ := blank_live
  have hfresh := hb.fresh
  obtain ⟨result, data, s', -, f', hfs, -⟩ := hb.write_one hlive hzero 0x10000000
  refine ⟨f, f', q, desc, hfs, (fsWrite_no_trace_iff hb.blank.kernel hb.blank.mounted hlive (by decide)
    hfs).mpr (Or.inr ⟨hb.made.type, by decide, fun _ => ⟨fun hno => ?_, fun hno => ?_⟩⟩)⟩
  · have hlt := hno 0 hfresh.freeAt
    rw [turn_zero (by decide)] at hlt
    exact absurd hfresh.cluster (by omega)
  · have hle := hno 0 ⟨by rw [hb.rootPos]; omega, hfresh.marker,
      fun j hj => absurd hj (Nat.not_lt_zero j)⟩
    rw [hb.header] at hle
    exact absurd hle (by decide)

/-- **A write of 131072 bytes to a new file is refused after its entry has been put on the disk, and
this is not reported.** -/
theorem refused_write_leaves_entry : ∃ (f f' : FileState FatFileDescriptor) (p : FatPrivate)
    (desc : FileDescriptor FatFileDescriptor) (c : Nat), KernelHeap f.sys.arena ∧
    Mounted f.sys p ∧ LiveFile f 1 desc c ∧
    fsWrite fileSystemOf 0x10000000 1 131072 f = .ok ok f' ∧
    (f.sys.ata.image 1536 = 0 ∧ f'.sys.ata.image 1536 = 75) ∧
    ¬ ∀ result data s', fat16Write primaryDisk 0x10000000 desc.privateData 131072 f.sys =
        .ok (result, data) s' → WriteFailed f.sys p desc.privateData result →
      NoTrace f f' 1 desc ok := by
  obtain ⟨s, f, q, desc, c, hb, hlive, hzero⟩ := blank_live
  have hcard := hb.card
  have hfresh := hb.fresh
  obtain ⟨hrefused, hblocks⟩ := refused_131072
  obtain ⟨⟨result, data⟩, s', hw⟩ : ∃ r s', fat16Write primaryDisk 0x10000000 desc.privateData 131072
      f.sys = .ok r s' :=
    fat16Write_fresh_returns hb.blank.kernel hb.blank.mounted hb.made.type hlive.length hlive.entry
      hlive.held hzero (by decide) hfresh hrefused (by rw [hblocks]; omega) (by rw [hblocks]; omega)
  have hfs : fsWrite fileSystemOf 0x10000000 1 131072 f = .ok ok _ :=
    fsWrite_run (by decide) hlive.found (by rw [hlive.disk]; cases desc.fs; exact hw)
  have hfail := (writeFailed_iff hb.blank.kernel hb.blank.mounted hlive.length hlive.entry hlive.held
    (by decide) (by decide) hw).mpr fun hwr => hwr.2.1 hrefused
  refine ⟨f, _, q, desc, c, hb.blank.kernel, hb.blank.mounted, hlive, hfs,
    ⟨?_, (hb.entry hlive hzero (by decide) hw).2⟩, fun hprop => (hprop result data s' hw hfail).2.2 rfl⟩
  rw [hb.ata]
  change blankBootSector.getD 1536 0 = 0
  decide

end KokoOs
