/-
# What `fs_open` does to the kernel

Behind the parser `fs_open` asks the file system of the disk, and makes a descriptor.  It touches
no object that was there before, and what it makes is made of new objects (`fsOpen_frame`, `NewSlot`).

* **Paths.**  `PathString` is what every caller passes: a string of live memory, apart from the locals of
  the functions that read it.  Parsing it is covered for every length: a path that is too long for
  `strlen` is never answered (`PathString.parse_long`).
* **Files in the root directory.**  A path of one component becomes a root with one part, and the file
  system is asked for its name (`fsOpen_one`).
* **New files.**  If the root directory does not have the name, opening it for writing makes a new file
  in the first free slot (`fsOpen_write_absent`), and opening it for reading answers NULL
  (`fsOpen_read_absent`).
-/
import KokoOs.Fat16Frame
import KokoOs.FileSpec
import KokoOs.PathNames

namespace KokoOs

open Bytes Prog

/-! ## 1. The path of a call -/

/-- The path that is passed to a call: a string of live memory, apart from the locals of the
functions that read it. -/
structure PathString (a : Arena) (path : Nat) (bytes : List UInt8) : Prop where
  str : CString a.mem path bytes
  nz : 0 ∉ bytes
  off : path + bytes.length < stackBuffer ∨ stackBuffer + 32 ≤ path
  stored : Stored a path bytes

section

variable {a : Arena} {path : Nat} {bytes : List UInt8}

theorem PathString.offSlice (h : PathString a path bytes) : OffSlice path bytes := by
  have := h.off
  unfold OffSlice
  simp only [startPathSlice, stackBuffer] at this ⊢
  omega

theorem pathSliceRange_subset : pathSliceRange ⊆ stackRange := by
  intro x hx
  have hx' : startPathSlice ≤ x ∧ x ≤ startPathSlice + 2 := hx
  simp only [startPathSlice] at hx'
  exact Set.mem_Ico.mpr (by simp only [stackBuffer]; omega)

/-- Parsing a path that is too long for `strlen` never ends. -/
theorem PathString.parse_long (h : PathString a path bytes) (hlen : 65536 ≤ bytes.length)
    {root : Nat} {a' : Arena} : pathParserParsePath path a ≠ .ok root a' := by
  intro hrun
  unfold pathParserParsePath pathParserIsPathValid at hrun
  obtain ⟨v, a1, hvalid, -⟩ := (bind_ok_iff _ _ _ _ _).mp hrun
  rw [get_bind, h.str.strlen_long h.nz hlen] at hvalid
  obtain ⟨n, a2, hthrow, -⟩ := (bind_ok_iff _ _ _ _ _).mp hvalid
  exact (throw_ok_iff _ _ _ _).mp hthrow

/-- **Parsing a path of any length**, if it returns. -/
theorem PathString.parse (h : PathString a path bytes) (hk : KernelHeap a) {root : Nat} {a' : Arena}
    (hrun : pathParserParsePath path a = .ok root a') : Touches ∅ pathSliceRange a a' ∧
      ((¬ validPath bytes ∧ root = 0 ∧ a'.heap = a.heap) ∨
        (validPath bytes ∧ ∃ fb, heapEntryIsFree (a.heap.table.entry fb) = true ∧ Held a' fb)) := by
  rcases Nat.lt_or_ge bytes.length 65536 with hlen | hlen
  · obtain ⟨ht, hcase⟩ := Runs.value (parsePath_runs hk h.str h.nz hlen h.offSlice h.stored
      fun _ _ => trivial) hrun
    refine ⟨ht, hcase.imp id ?_⟩
    rintro ⟨hv, -, rtb, first, pb, S, hp⟩
    obtain ⟨fb, hfb, -, hfree⟩ := hp.chain.new
    exact ⟨hv, fb, hfree, hp.chain.held fb hfb⟩
  · exact absurd hrun (h.parse_long hlen)

end

/-! ## 2. The frame of the call -/

theorem NewDescriptor.keep {base a a' : Arena} {desc : FatFileDescriptor} {d b c : Nat}
    (h : NewDescriptor base a desc d b c) {W : Set Nat} (ht : Touches ∅ W a a') :
    NewDescriptor base a' desc d b c :=
  ⟨h.address, h.itemBlock, h.entryBlock, h.apart, fun x hx =>
    ⟨ht.held x (Set.notMem_empty x) (h.held x hx).1, (h.held x hx).2⟩⟩

/-- What a descriptor in the table is made of: the object at block `e`, next to those of its
private data, none of which existed in `base`. -/
structure NewSlot (base a : Arena) (desc : FileDescriptor FatFileDescriptor) (e d b c : Nat) :
    Prop where
  data : NewDescriptor base a desc.privateData d b c
  address : desc.address = blockAt e
  held : Held a e ∧ ¬ Held base e
  apart : e ∉ ({d, b, c} : Set Nat)

section

variable {f f' f'' : FileState FatFileDescriptor} {p : FatPrivate} {filename fd : Nat}
  {mode : FileMode} {bytes : List UInt8}

theorem diskGet_some {type : Nat} {disk : DiskRef} (h : diskGet type = some disk) :
    disk = primaryDisk := by
  unfold diskGet at h
  split at h
  · cases h
  · exact (Option.some_inj.mp h).symm

/-- What `fs_open` does behind the parser: it touches no object, and the descriptor it makes, if it
makes one, is made of new ones. -/
theorem fsOpen_frame (hk : KernelHeap f.sys.arena) (hm : Mounted f.sys p)
    (hpath : PathString f.sys.arena filename bytes)
    (h : fsOpen fileSystemOf filename mode f = .ok fd f') : ∃ root a,
      pathParserParsePath filename f.sys.arena = .ok root a ∧
      Reads ∅ stackRange { f.sys with arena := a } f'.sys ∧ f'.fileSystems = f.fileSystems ∧
      ((fd = 0 ∧ f'.fileDescriptors = f.fileDescriptors ∧
          (root = 0 → f'.sys.arena = a)) ∨
        ∃ i desc e d b c, root ≠ 0 ∧ fd = i + 1 ∧ freeSlot f = some i ∧
          NewSlot a f'.sys.arena desc e d b c ∧
          f'.fileDescriptors = Function.update f.fileDescriptors i (some desc)) := by
  obtain ⟨root, a, hparse, hcase⟩ := fsOpen_ok h
  obtain ⟨ht, -⟩ := hpath.parse hk hparse
  have hm1 : Mounted { f.sys with arena := a } p := (Reads.of_arena ht).mounted hm
  have hk1 : KernelHeap ({ f.sys with arena := a } : Sys).arena := ht.kernel
  refine ⟨root, a, hparse, ?_⟩
  rcases hcase with ⟨rfl, rfl⟩ | ⟨disk, fs, r, s, hasked, hcase⟩
  · exact ⟨Reads.refl hk1 _ _, rfl, Or.inl ⟨rfl, rfl, fun _ => rfl⟩⟩
  · obtain rfl := diskGet_some hasked.disk_eq
    obtain rfl : fs = .fat16 := Option.some_inj.mp (hasked.fs_eq.symm.trans hm.fs)
    obtain ⟨hreads, hnew⟩ := (fat16Open_reads hk1 hm1 _ _).ok hasked.answered
    rcases hcase with ⟨rfl, rfl⟩ | ⟨data, i, address, s', rfl, hslot, rfl, halloc, rfl⟩
    · exact ⟨hreads, rfl, Or.inl ⟨rfl, rfl, fun h0 => absurd h0 hasked.root_ne⟩⟩
    · obtain ⟨e, rfl, hnew2, hreads2, -⟩ := Runs.value (Sys.zalloc_runs hreads.kernel (by omega)
        (by omega) fun _ _ => trivial) halloc
      obtain ⟨d, b, c, hdesc⟩ := hnew data rfl
      refine ⟨hreads.trans (hreads2.mono (Set.Subset.refl _) (Set.empty_subset _)), rfl,
        Or.inr ⟨i, _, e, d, b, c, hasked.root_ne, rfl, hslot, ⟨hdesc.keep hreads2.touches, rfl,
          ⟨hnew2.held, fun he => hnew2.fresh ?_⟩, fun he => hnew2.fresh (hdesc.held e he).1⟩, rfl⟩⟩
      exact hreads.touches.held e (Set.notMem_empty e) he

end

/-! ## 3. Files in the root directory -/

/-- What the parser makes of `d:/c`: a root for drive `d`, with one part, which is named `c`. -/
structure ParsedOne (a a' : Arena) (d : Nat) (c : List UInt8) (root pb nb : Nat) : Prop where
  touches : Touches ∅ pathSliceRange a a'
  root_ne : root ≠ 0
  drive : a'.mem root = UInt8.ofNat d
  part : u32 a'.mem (root + 4) = blockAt pb
  name : u32 a'.mem (blockAt pb) = blockAt nb
  next : u32 a'.mem (blockAt pb + 4) = 0
  held : Held a' pb ∧ Held a' nb
  str : CString a'.mem (blockAt nb) c
  card : (freeBlocks a.heap).card ≤ (freeBlocks a'.heap).card + 4

/-- The part, for the file system. -/
theorem ParsedOne.namedPart {a a' : Arena} {d root pb nb : Nat} {c : List UInt8}
    (h : ParsedOne a a' d c root pb nb) (hc : IsComponent c) (hlen : c.length ≤ 253) :
    NamedPart a' pb nb c :=
  ⟨h.name, h.held, h.str, hc.2.2, by omega⟩

theorem PathString.parse_one {stop : Halt → Prop} {a : Arena} {path d : Nat} {c : List UInt8}
    (h : PathString a path (pathOf d [c])) (hk : KernelHeap a) (hd : d ≤ 9) (hc : IsComponent c)
    (hlen : c.length ≤ 253) (hs : (freeBlocks a.heap).card < 3 → ∀ e, stop e) :
    Runs stop (pathParserParsePath path) a fun root a' => ∃ pb nb, ParsedOne a a' d c root pb nb := by
  have hsplit : partSplit ((pathOf d [c]).drop 3) = ⟨[c], [], true⟩ := partSplit_whole (Or.inl hc.2.1)
  have hlen' : (pathOf d [c]).length = c.length + 3 := rfl
  obtain ⟨hdigit, hget⟩ := isDigit_digit hd
  refine (parsePath_runs hk h.str h.nz (by omega) h.offSlice h.stored fun h0 => hs ?_).mono ?_
  · rw [hsplit] at h0
    exact h0
  rintro root a' ⟨ht, ⟨hno, -⟩ | ⟨-, hcard, rtb, first, pb, S, hp⟩⟩
  · exact absurd ⟨by omega, hdigit, rfl, rfl⟩ hno
  · rw [hsplit] at hcard hp
    obtain ⟨ns, x, hnames, hparts, hname⟩ := hp.chain.parts
    obtain ⟨rfl, hx⟩ := List.append_inj' (show [] ++ [c] = ns ++ [x] from hnames) rfl
    obtain rfl : c = x := List.singleton_inj.mp hx
    obtain rfl : first = blockAt pb := hparts
    rcases hname with ⟨rfl, -⟩ | ⟨nb, hnb, hword, -, hstr, -⟩
    · exact absurd rfl hc.1
    · exact ⟨pb, nb, ht, hp.isBlock.1 ▸ Nat.ne_of_gt (blockAt_pos rtb), hp.drive.trans hget, hp.part,
        hword, hp.chain.next rfl, ⟨hp.chain.held pb (Set.mem_insert _ _),
          hp.chain.held nb (Set.mem_insert_of_mem _ hnb)⟩, hstr, hcard⟩

/-- **`fs_open` of `0:/c`** asks the file system of the disk for a part with that name. -/
theorem fsOpen_one {stop : Halt → Prop} {f : FileState FatFileDescriptor} {p : FatPrivate}
    {filename : Nat} {mode : FileMode} {c : List UInt8} {Q : Nat → FileState FatFileDescriptor → Prop}
    (hk : KernelHeap f.sys.arena) (hm : Mounted f.sys p)
    (hpath : PathString f.sys.arena filename (pathOf 0 [c])) (hc : IsComponent c)
    (hlen : c.length ≤ 253) (hs : (freeBlocks f.sys.arena.heap).card < 3 → ∀ e, stop e)
    (hrest : ∀ root a pb nb, ParsedOne f.sys.arena a 0 c root pb nb →
      Runs stop (fsOpenOn fileSystemOf primaryDisk .fat16 (blockAt pb) mode)
        { f with sys := { f.sys with arena := a } } Q) :
    Runs stop (fsOpen fileSystemOf filename mode) f Q := by
  unfold fsOpen
  refine Runs.bind (Q := fun root f' => ∃ a pb nb, ParsedOne f.sys.arena a 0 c root pb nb ∧
    f' = { f with sys := { f.sys with arena := a } }) ?_ ?_
  · have hparse : Runs stop (onArena (pathParserParsePath filename)) f.sys fun root s =>
        ∃ a, s = { f.sys with arena := a } ∧ ∃ pb nb, ParsedOne f.sys.arena a 0 c root pb nb :=
      Runs.zoom (hpath.parse_one hk (by omega) hc hlen hs) fun _ a h => ⟨a, rfl, h⟩
    refine Runs.zoom hparse ?_
    rintro root s ⟨a, rfl, pb, nb, h⟩
    exact ⟨a, pb, nb, h, rfl⟩
  · rintro root f' ⟨a, pb, nb, h, rfl⟩
    refine Runs.get_bind ?_
    dsimp only
    have hfirst := Nat.ne_of_gt (blockAt_pos pb)
    have hname := Nat.ne_of_gt (blockAt_pos nb)
    rw [if_neg h.root_ne, h.part, if_neg hfirst, h.name, if_neg hname, h.drive]
    have hdisk : diskGet (UInt8.ofNat 0).toNat = some primaryDisk := by decide
    rw [hdisk]
    dsimp only
    rw [hm.fs]
    exact hrest root a pb nb h

/-! ## 4. Names that are not in the root directory -/

section

variable {stop : Halt → Prop} {f : FileState FatFileDescriptor} {p : FatPrivate} {filename i : Nat}
  {c : List UInt8}

/-- The new descriptor for a slot. -/
theorem fsNewFileDescriptor_runs (hk : KernelHeap f.sys.arena)
    (hslot : freeSlot f = some i) (disk : DiskRef) (data : FatFileDescriptor)
    (hs : (freeBlocks f.sys.arena.heap).card = 0 → ∀ e, stop e) :
    Runs stop (fsNewFileDescriptor .fat16 disk data) f fun r f' => ∃ e,
      r = some ⟨blockAt e, i + 1, .fat16, disk, data⟩ ∧ Reads ∅ ∅ f.sys f'.sys ∧
      New f.sys.arena f'.sys.arena e ∧
      (freeBlocks f'.sys.arena.heap).card + 1 = (freeBlocks f.sys.arena.heap).card ∧
      f'.fileDescriptors = Function.update f.fileDescriptors i
        (some ⟨blockAt e, i + 1, .fat16, disk, data⟩) := by
  unfold fsNewFileDescriptor
  refine Runs.get_bind ?_
  rw [show fsFreeSlotLoop f.fileDescriptors kernelMaxFileDescriptors 0 = some i from hslot]
  dsimp only
  refine Runs.bind (Q := fun address f' => ∃ e, address = blockAt e ∧ New f.sys.arena f'.sys.arena e ∧
    Reads ∅ ∅ f.sys f'.sys ∧
    (freeBlocks f'.sys.arena.heap).card + 1 = (freeBlocks f.sys.arena.heap).card ∧
    f'.fileDescriptors = f.fileDescriptors) ?_ ?_
  · refine Runs.zoom (Sys.zalloc_runs hk (by omega) (by omega) hs) ?_
    rintro address s ⟨e, rfl, hnew, hreads, hcard⟩
    exact ⟨e, rfl, hnew, hreads, hcard, rfl⟩
  · rintro address f1 ⟨e, rfl, hnew, hreads, hcard, htable⟩
    refine Runs.bind (Runs.modify (Q := fun _ f' => f'.sys = f1.sys ∧ f'.fileDescriptors =
      Function.update f.fileDescriptors i (some ⟨blockAt e, i + 1, .fat16, disk, data⟩)) ?_) ?_
    · exact ⟨rfl, by rw [htable]⟩
    · rintro - f2 ⟨hsys, htable2⟩
      exact Runs.pure ⟨e, rfl, hsys ▸ hreads, hsys ▸ hnew, by rw [hsys]; exact hcard, htable2⟩

/-- What an open of a new file has done: slot `i` has a descriptor of the entry that new files are
made with. -/
structure MadeFile (f f' : FileState FatFileDescriptor) (i : Nat)
    (desc : FileDescriptor FatFileDescriptor) : Prop where
  reads : Reads ∅ stackRange f.sys f'.sys
  card : (freeBlocks f.sys.arena.heap).card ≤ (freeBlocks f'.sys.arena.heap).card + 8
  index : desc.index = i + 1
  disk : desc.disk = primaryDisk
  entry : desc.privateData.item.item = kokoItem
  type : desc.privateData.item.type = .file
  table : f'.fileDescriptors = Function.update f.fileDescriptors i (some desc)
  slot : ∃ a e d b c, NewSlot a f'.sys.arena desc e d b c

/-- **Opening an absent name for writing makes a new file**, in the first free slot. -/
theorem fsOpen_write_absent (hk : KernelHeap f.sys.arena) (hm : Mounted f.sys p)
    (hpath : PathString f.sys.arena filename (pathOf 0 [c])) (hc : IsComponent c)
    (hlen : c.length ≤ 253) (habs : Absent p.rootDirectory c) (hslot : freeSlot f = some i)
    (hs : (freeBlocks f.sys.arena.heap).card < 8 ∨ p.rootDirectory.total ≠ 0 → ∀ e, stop e) :
    Runs stop (fsOpen fileSystemOf filename .write) f fun fd f' =>
      fd = i + 1 ∧ ∃ desc, MadeFile f f' i desc := by
  have hsub := Set.empty_subset stackRange
  refine fsOpen_one hk hm hpath hc hlen (fun h0 => hs (Or.inl (by omega))) ?_
  intro root a pb nb hp
  have h0 : Reads ∅ stackRange f.sys { f.sys with arena := a } :=
    Reads.of_arena (hp.touches.mono (Set.Subset.refl _) pathSliceRange_subset)
  have hcard0 := hp.card
  unfold fsOpenOn
  refine Runs.bind (Q := fun r f1 => ∃ d b c item, r = .ok ⟨blockAt d, item, 0⟩ ∧
    item.item = kokoItem ∧ item.type = .file ∧ Reads ∅ ∅ { f.sys with arena := a } f1.sys ∧
    NewDescriptor a f1.sys.arena ⟨blockAt d, item, 0⟩ d b c ∧
    (freeBlocks a.heap).card = (freeBlocks f1.sys.arena.heap).card + 3 ∧
    f1.fileDescriptors = f.fileDescriptors) ?_ ?_
  · refine Runs.zoom (openForWrite_absent (s := { f.sys with arena := a }) h0.kernel
      (h0.mounted hm) habs (hp.namedPart hc hlen) fun hlt => hs ?_) ?_
    · refine hlt.imp (fun hlt => ?_) id
      dsimp only at hlt
      omega
    · rintro r s ⟨hr, ⟨d, b, c, item, rfl, hitem, htype, hdesc⟩, hcard1⟩
      exact ⟨d, b, c, item, rfl, hitem, htype, hr, hdesc, hcard1, rfl⟩
  · rintro r f1 ⟨d, b, c, item, rfl, hitem, htype, hr, hdesc, hcard1, htable⟩
    have haddr : ¬ ((fileSystemOf .fat16).addressOf ⟨blockAt d, item, 0⟩ ≥ 2 ^ 31) :=
      Nat.not_le_of_lt (blockAt_lt (hdesc.held d (by simp)).1.lt)
    dsimp only
    rw [if_neg haddr]
    have hslot1 : freeSlot f1 = some i := by
      unfold freeSlot
      rw [htable]
      exact hslot
    refine Runs.bind (fsNewFileDescriptor_runs hr.kernel hslot1 primaryDisk _
      fun h0 => hs (Or.inl (by omega))) ?_
    rintro r f2 ⟨e, rfl, hr2, hnew, hcard2, htable2⟩
    have hreads := (h0.trans (hr.mono (Set.Subset.refl _) hsub)).trans
      (hr2.mono (Set.Subset.refl _) hsub)
    have hfresh : ¬ Held a e := fun he => hnew.fresh (hr.touches.held e (Set.notMem_empty e) he)
    refine Runs.pure ⟨rfl, _, hreads, by omega, rfl, rfl, hitem, htype, by rw [htable2, htable], a, e, d,
      b, c, hdesc.keep hr2.touches, rfl, ⟨hnew.held, hfresh⟩, ?_⟩
    exact fun he => hnew.fresh (hdesc.held e he).1

/-- **Opening an absent name for reading** finds no file, and answers NULL. -/
theorem fsOpen_read_absent (hk : KernelHeap f.sys.arena) (hm : Mounted f.sys p)
    (hpath : PathString f.sys.arena filename (pathOf 0 [c])) (hc : IsComponent c)
    (hlen : c.length ≤ 253) (habs : Absent p.rootDirectory c)
    (hs : (freeBlocks f.sys.arena.heap).card < 8 ∨ p.rootDirectory.total ≠ 0 → ∀ e, stop e) :
    Runs stop (fsOpen fileSystemOf filename .read) f fun fd _ => fd = 0 := by
  refine fsOpen_one hk hm hpath hc hlen (fun h0 => hs (Or.inl (by omega))) ?_
  intro root a pb nb hp
  have h0 : Reads ∅ stackRange f.sys { f.sys with arena := a } :=
    Reads.of_arena (hp.touches.mono (Set.Subset.refl _) pathSliceRange_subset)
  have hcard0 := hp.card
  unfold fsOpenOn
  refine Runs.bind (Q := fun r f1 => r = .error fsCannotGetFile) ?_ ?_
  · refine Runs.zoom (openForRead_absent (s := { f.sys with arena := a }) h0.kernel
      (h0.mounted hm) habs (hp.namedPart hc hlen) fun hlt => hs ?_) fun r s h => h.2
    refine hlt.imp (fun hlt => ?_) id
    dsimp only at hlt
    omega
  · rintro r f1 rfl
    exact Runs.pure rfl

end

end KokoOs
