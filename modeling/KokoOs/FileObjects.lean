/-
# The objects of the open files

A descriptor is made of four objects: its own, that of the file system, the item and the clone of its
entry.  No two open files share one (`OpenTable`), and opening, writing and closing keep it so.

* **Opening.**  The objects are new, so they are nobody's (`OpenTable.openFile`).  The entry in the clone is
  one of the root directory that was loaded at the mount, or the one that new files are made with
  (`fat16Open_item`).
* **Writing.**  A write changes the entry of its own descriptor at most (`OpenTable.write`).  The disk
  changes only if the descriptor is one of a file, and then as `FileWritten` says.
* **Closing.**  A descriptor that is closed lets go of its own objects (`OpenTable.close`).

So what happens through one descriptor leaves the entries of all others as they are.  That two descriptors
may have clones of the same entry, and so write to the same cluster, is another matter.
-/
import KokoOs.FileAtomic
import KokoOs.FileWrite

namespace KokoOs

open Bytes Prog

/-! ## 1. Items that are opened -/

section

variable {s : Sys} {p : FatPrivate}

/-- A search finds entries of the directory. -/
theorem findLoop_item {directory : FatDirectory} {name fuel i : Nat} {item : Option FatItem}
    (hitem : ∀ x, item = some x → x.item ∈ directory.loaded) :
    Runs (fun _ => True) (fat16FindLoop primaryDisk directory name fuel i item) s fun r _ =>
      ∀ x, r = some x → x.item ∈ directory.loaded := by
  induction fuel generalizing s i item with
  | zero => exact Runs.pure hitem
  | succ fuel ih =>
    unfold fat16FindLoop
    refine Runs.bind (orFault_runs fun _ _ => trivial) ?_
    rintro dirItem s1 ⟨hget, rfl⟩
    refine Runs.bind (orFault_runs fun _ _ => trivial) ?_
    rintro tmp s2 ⟨-, rfl⟩
    refine Runs.get_bind (Runs.bind (orHangs_runs fun _ _ => trivial) ?_)
    rintro cmp s3 ⟨-, rfl⟩
    split
    · refine Runs.bind (newFatItem_item dirItem) fun r s4 hr => ih fun x hx => ?_
      rw [(hr x hx).item]
      exact List.mem_of_getElem? hget
    · exact ih hitem

/-- The walk down the path answers with the item it begins with, if at all. -/
theorem directoryEntryLoop_item {fuel nextPart : Nat} {item : Option FatItem} :
    Runs (fun _ => True) (fat16DirectoryEntryLoop fuel nextPart item) s fun r _ =>
      ∀ x, r = some x → item = some x := by
  induction fuel generalizing s nextPart item with
  | zero => exact Runs.throw trivial
  | succ fuel ih =>
    unfold fat16DirectoryEntryLoop
    split
    · exact Runs.pure fun _ h => h
    · refine Runs.bind (orFault_runs fun _ _ => trivial) ?_
      rintro it s1 -
      split
      · exact Runs.pure fun _ h => by cases h
      · refine Runs.bind (Q := fun r _ => r = none) ?_ ?_
        · unfold fat16FindItemInItem
          split
          · exact Runs.pure rfl
          · exact Runs.throw trivial
        · rintro r s2 rfl
          refine Runs.bind (runs_any _ _) fun _ s3 _ => Runs.get_bind (ih.mono fun r _ hr x hx => ?_)
          cases hr x hx

theorem getDirectoryEntry_item (hm : Mounted s p) (path : Nat) :
    Runs (fun _ => True) (fat16GetDirectoryEntry primaryDisk path) s fun r _ =>
      ∀ x, r = some x → x.item ∈ p.rootDirectory.loaded := by
  unfold fat16GetDirectoryEntry
  refine Runs.bind (hm.fsPrivate_runs (Q := fun q s' => q = p ∧ s' = s) ⟨rfl, rfl⟩) ?_
  rintro q s' ⟨rfl, rfl⟩
  refine Runs.get_bind (Runs.bind (findLoop_item fun _ h => by cases h) ?_)
  intro r s1 h1
  cases r with
  | none => exact Runs.pure fun _ h => by cases h
  | some item =>
    refine Runs.get_bind (directoryEntryLoop_item.mono fun r _ hr x hx => ?_)
    cases hr x hx
    exact h1 _ rfl

/-- **The item of a file that is opened** is one of the root directory, or the one of new files. -/
theorem fat16Open_item (hk : KernelHeap s.arena) (hm : Mounted s p) (path : Nat) (mode : FileMode) :
    Runs (fun _ => True) (fat16Open primaryDisk path mode) s fun r _ => ∀ desc, r = .ok desc →
      desc.item.item ∈ p.rootDirectory.loaded ∨ desc.item.item = kokoItem := by
  cases mode with
  | append => exact Runs.pure fun _ h => by cases h
  | read =>
    change Runs _ (fat16OpenForRead primaryDisk path) s _
    unfold fat16OpenForRead
    refine Runs.bind (Sys.zalloc_runs hk (by omega) (by omega) fun _ _ => trivial) ?_
    rintro q s1 ⟨d, rfl, -, h1, -⟩
    rw [if_neg (Nat.ne_of_gt (blockAt_pos d))]
    refine Runs.bind (getDirectoryEntry_item (h1.mounted hm) path) fun r s2 hitem => ?_
    cases r with
    | none => exact Runs.bind (runs_any _ _) fun _ _ _ => Runs.pure fun _ h => by cases h
    | some item =>
      refine Runs.pure fun desc h => ?_
      cases h
      exact Or.inl (hitem item rfl)
  | write =>
    change Runs _ (fat16OpenForWrite primaryDisk path) s _
    unfold fat16OpenForWrite
    refine Runs.bind (Sys.zalloc_runs hk (by omega) (by omega) fun _ _ => trivial) ?_
    rintro q s1 ⟨d, rfl, -, h1, -⟩
    rw [if_neg (Nat.ne_of_gt (blockAt_pos d))]
    refine Runs.bind (getDirectoryEntry_item (h1.mounted hm) path) fun r s2 hitem => ?_
    cases r with
    | none =>
      refine Runs.bind (Q := fun item _ => item.item = kokoItem) ?_ ?_
      · unfold fat16NewFileItem
        refine Runs.bind (runs_any _ _) fun _ _ _ => Runs.bind (runs_any _ _) fun _ _ _ =>
          Runs.bind (runs_any _ _) fun _ _ _ => Runs.pure rfl
      · intro item s3 hkoko
        refine Runs.pure fun desc h => ?_
        cases h
        exact Or.inr hkoko
    | some item =>
      refine Runs.pure fun desc h => ?_
      cases h
      exact Or.inl (hitem item rfl)

end

/-! ## 2. Whose the objects are -/

/-- The objects of a descriptor. -/
def objectsOf (desc : FileDescriptor FatFileDescriptor) : Set Nat :=
  {x | blockAt x = desc.address ∨ blockAt x = desc.privateData.address ∨
    blockAt x = desc.privateData.item.address ∨ blockAt x = desc.privateData.item.itemAddress}

/-- A descriptor in the table: it is on the primary disk, and its objects are its own. -/
structure OpenSlot (a : Arena) (desc : FileDescriptor FatFileDescriptor) : Prop where
  disk : desc.disk = primaryDisk
  length : desc.privateData.item.item.length = 32
  slot : ∃ base e d b c, NewSlot base a desc e d b c

/-- No two open files share an object. -/
structure OpenTable (f : FileState FatFileDescriptor) : Prop where
  kernel : KernelHeap f.sys.arena
  slots : ∀ i desc, f.fileDescriptors i = some desc → OpenSlot f.sys.arena desc
  apart : ∀ i j desc desc', f.fileDescriptors i = some desc → f.fileDescriptors j = some desc' →
    i ≠ j → ∀ x ∈ objectsOf desc, x ∉ objectsOf desc'

section

variable {f f' : FileState FatFileDescriptor} {s s' : Sys} {p : FatPrivate}
  {filename fd input n : Nat} {mode : FileMode} {bytes : List UInt8} {code : Int}
  {desc : FileDescriptor FatFileDescriptor} {data : FatFileDescriptor} {base a a' : Arena}
  {i e d b c x : Nat}

theorem NewSlot.mem_objectsOf (h : NewSlot base a desc e d b c) :
    x ∈ objectsOf desc ↔ x = e ∨ x = d ∨ x = b ∨ x = c := by
  have hinj : ∀ {y}, blockAt x = blockAt y ↔ x = y := ⟨blockAt_inj, congrArg blockAt⟩
  change blockAt x = desc.address ∨ blockAt x = _ ∨ blockAt x = _ ∨ blockAt x = _ ↔ _
  rw [h.address, h.data.address, h.data.itemBlock, h.data.entryBlock]
  simp only [hinj]

/-- The objects of a descriptor are its caller's, and have not been before it was made. -/
theorem NewSlot.held_objects (h : NewSlot base a desc e d b c) (hx : x ∈ objectsOf desc) :
    Held a x ∧ ¬ Held base x := by
  rcases h.mem_objectsOf.mp hx with rfl | hx
  · exact h.held
  · exact h.data.held x (by simpa using hx)

/-- The objects of a descriptor stay its own as long as they are held. -/
theorem NewSlot.keep (h : NewSlot base a desc e d b c)
    (hkeep : ∀ x ∈ objectsOf desc, Held a x → Held a' x) : NewSlot base a' desc e d b c := by
  have hheld : ∀ x, x ∈ objectsOf desc → Held a' x ∧ ¬ Held base x := fun x hx =>
    ⟨hkeep x hx (h.held_objects hx).1, (h.held_objects hx).2⟩
  have hmem := fun x => h.mem_objectsOf (x := x)
  refine ⟨⟨h.data.address, h.data.itemBlock, h.data.entryBlock, h.data.apart, fun x hx => ?_⟩,
    h.address, hheld e ((hmem e).mpr (Or.inl rfl)), h.apart⟩
  exact hheld x ((hmem x).mpr (Or.inr (by simpa using hx)))

theorem OpenSlot.keep (h : OpenSlot a desc)
    (hkeep : ∀ x ∈ objectsOf desc, Held a x → Held a' x) : OpenSlot a' desc := by
  obtain ⟨base, e, d, b, c, hslot⟩ := h.slot
  exact ⟨h.disk, h.length, base, e, d, b, c, hslot.keep hkeep⟩

/-- No file is open. -/
theorem OpenTable.empty (hk : KernelHeap f.sys.arena) (hempty : ∀ i, f.fileDescriptors i = none) :
    OpenTable f where
  kernel := hk
  slots i _ hi := by cases (hempty i).symm.trans hi
  apart i _ _ _ hi := by cases (hempty i).symm.trans hi

/-- An open file holds its objects. -/
theorem OpenTable.held (h : OpenTable f) (hi : f.fileDescriptors i = some desc)
    (hx : x ∈ objectsOf desc) : Held f.sys.arena x := by
  obtain ⟨base, e, d, b, c, hslot⟩ := (h.slots i desc hi).slot
  exact (hslot.held_objects hx).1

/-- **A slot changes**: what is put there has objects of its own, and the other open files keep
theirs. -/
theorem OpenTable.update (h : OpenTable f) (hk : KernelHeap s'.arena)
    {o : Option (FileDescriptor FatFileDescriptor)}
    (hkeep : ∀ j desc', j ≠ i → f.fileDescriptors j = some desc' →
      ∀ x ∈ objectsOf desc', Held s'.arena x)
    (hnew : ∀ desc, o = some desc → OpenSlot s'.arena desc)
    (hapart : ∀ desc, o = some desc → ∀ j desc', j ≠ i → f.fileDescriptors j = some desc' →
      ∀ x ∈ objectsOf desc, x ∉ objectsOf desc') :
    OpenTable ⟨s', f.fileSystems, Function.update f.fileDescriptors i o⟩ := by
  have hcases : ∀ {j desc}, Function.update f.fileDescriptors i o j = some desc →
      (j = i ∧ o = some desc) ∨ j ≠ i ∧ f.fileDescriptors j = some desc := by
    intro j desc hj
    by_cases hne : j = i
    · rw [hne, Function.update_self] at hj
      exact Or.inl ⟨hne, hj⟩
    · rw [Function.update_of_ne hne] at hj
      exact Or.inr ⟨hne, hj⟩
  refine ⟨hk, fun j desc hj => ?_, fun j k desc desc' hj hk hne => ?_⟩
  · rcases hcases hj with ⟨-, ho⟩ | ⟨hji, hold⟩
    · exact hnew desc ho
    · exact (h.slots j desc hold).keep fun x hx _ => hkeep j desc hji hold x hx
  · rcases hcases hj with ⟨rfl, ho⟩ | ⟨hji, hold⟩ <;> rcases hcases hk with ⟨rfl, ho'⟩ | ⟨hki, hold'⟩
    · exact absurd rfl hne
    · exact hapart desc ho k desc' hki hold'
    · exact fun x hx hx' => hapart desc' ho' j desc hji hold x hx' hx
    · exact h.apart j k desc desc' hold hold' hne

/-- A call that changes no slot and lets go of no object keeps the table. -/
theorem OpenTable.mono (h : OpenTable f) (hk : KernelHeap s'.arena)
    (hkeep : ∀ x, Held f.sys.arena x → Held s'.arena x) : OpenTable { f with sys := s' } :=
  ⟨hk, fun i desc hi => (h.slots i desc hi).keep fun x _ => hkeep x, h.apart⟩

/-! ## 3. The calls -/

/-- **Opening a file** takes new objects, and does not change the disk. -/
theorem OpenTable.openFile (h : OpenTable f) (hm : Mounted f.sys p)
    (hpath : PathString f.sys.arena filename bytes)
    (hloaded : ∀ item ∈ p.rootDirectory.loaded, item.length = 32)
    (hcall : fsOpen fileSystemOf filename mode f = .ok fd f') :
    OpenTable f' ∧ Mounted f'.sys p ∧ f'.sys.ata = f.sys.ata := by
  obtain ⟨root, a, hparse, hreads, -, hframe⟩ := fsOpen_frame h.kernel hm hpath hcall
  obtain ⟨ht, -⟩ := hpath.parse h.kernel hparse
  have hm1 : Mounted { f.sys with arena := a } p := (Reads.of_arena ht).mounted hm
  have hbase : ∀ x, Held f.sys.arena x → Held a x := fun x => ht.held x (Set.notMem_empty x)
  have hkeep : ∀ x, Held f.sys.arena x → Held f'.sys.arena x := fun x hx =>
    hreads.touches.held x (Set.notMem_empty x) (hbase x hx)
  refine ⟨?_, hreads.mounted hm1, hreads.ata⟩
  obtain ⟨root', a', hparse', hcase⟩ := fsOpen_ok hcall
  obtain ⟨rfl, rfl⟩ := EStateM.Result.ok.inj (hparse.symm.trans hparse')
  rcases hcase with ⟨-, rfl⟩ | ⟨disk, fs, r, s, hasked, ⟨-, rfl⟩ |
    ⟨data, i, address, s', rfl, hfree, rfl, -, rfl⟩⟩
  · exact h.mono hreads.kernel hkeep
  · exact h.mono hreads.kernel hkeep
  · rcases hframe with ⟨hzero, -⟩ | ⟨j, desc, e, d, b, c, -, hij, -, hslot, htable⟩
    · omega
    obtain rfl : i = j := by omega
    have hdesc := congrFun htable i
    dsimp only at hdesc
    rw [Function.update_self, Function.update_self] at hdesc
    obtain rfl := Option.some_inj.mp hdesc
    obtain rfl := diskGet_some hasked.disk_eq
    cases fs
    have hitem := Runs.value (fat16Open_item ht.kernel hm1 _ _) hasked.answered data rfl
    refine h.update hreads.kernel (fun j desc' _ hj x hx => hkeep x (h.held hj hx)) ?_ ?_
    · rintro desc ho
      obtain rfl := Option.some_inj.mp ho
      refine ⟨rfl, ?_, a, e, d, b, c, hslot⟩
      rcases hitem with hitem | hitem
      · exact hloaded _ hitem
      · change data.item.item.length = 32
        rw [hitem]
        rfl
    · rintro desc ho j desc' - hj
      obtain rfl := Option.some_inj.mp ho
      exact fun x hx hx' => (hslot.held_objects hx).2 (hbase x (h.held hj hx'))

/-- A write leaves the objects of its descriptor in place. -/
theorem FileWritten.keep (h : FileWritten s p desc.privateData n c data s')
    (hslot : NewSlot base s.arena desc e d b c) (hlen : desc.privateData.item.item.length = 32) :
    (∀ x, Held s.arena x → Held s'.arena x) ∧
    NewSlot base s'.arena { desc with privateData := data } e d b c ∧
    data.item.type = desc.privateData.item.type ∧ data.item.item.length = 32 := by
  have hheld : ∀ x, Held s.arena x → Held s'.arena x := fun x hx => by
    by_cases hxc : x = c
    · exact hxc ▸ h.held
    · exact h.quiet.touches.held x (fun hin => hxc (Set.mem_singleton_iff.mp hin)) hx
  obtain ⟨item, s1, rfl, hitem, -⟩ := h.written
  have hsame : item.address = desc.privateData.item.address ∧
      item.itemAddress = desc.privateData.item.itemAddress ∧
      item.type = desc.privateData.item.type ∧ item.item.length = 32 := by
    rcases hitem with ⟨-, rfl, -⟩ | ⟨-, h1⟩
    · exact ⟨rfl, rfl, rfl, hlen⟩
    · obtain ⟨cluster, j, rfl, -⟩ := h1.cluster
      exact ⟨rfl, rfl, rfl, (length_setLow16 _ _).trans hlen⟩
  obtain ⟨haddress, hentry, htype, hlength⟩ := hsame
  exact ⟨hheld, ⟨⟨hslot.data.address, haddress.trans hslot.data.itemBlock,
    hentry.trans hslot.data.entryBlock, hslot.data.apart,
    fun x hx => ⟨hheld x (hslot.data.held x hx).1, (hslot.data.held x hx).2⟩⟩, hslot.address,
    ⟨hheld e hslot.held.1, hslot.held.2⟩, hslot.apart⟩, htype, hlength⟩

/-- The write of a descriptor of a file, as the file system does it. -/
theorem OpenSlot.written (hslot : OpenSlot f.sys.arena desc) (hk : KernelHeap f.sys.arena)
    (hm : Mounted f.sys p) (hn : n < 2 ^ 32) (hfile : desc.privateData.item.type = .file) {res : Int}
    (hw : (fileSystemOf desc.fs).write desc.disk input desc.privateData n f.sys =
      .ok (res, data) s') :
    ∃ base e d b c, NewSlot base f.sys.arena desc e d b c ∧
      FileWritten f.sys p desc.privateData n c data s' := by
  obtain ⟨base, e, d, b, c, hnew⟩ := hslot.slot
  rw [hslot.disk] at hw
  cases hfs : desc.fs
  rw [hfs] at hw
  exact ⟨base, e, d, b, c, hnew, (Runs.value (fat16Write_runs hk hm hfile hslot.length
    hnew.data.entryBlock (hnew.data.held c (by simp)).1 hn fun _ _ => trivial) hw).1⟩

/-- **Writing to an open file** keeps the table; the disk changes only if it is a file. -/
theorem OpenTable.write (h : OpenTable f) (hm : Mounted f.sys p) (hn : n < 2 ^ 32)
    (hcall : fsWrite fileSystemOf input fd n f = .ok code f') :
    OpenTable f' ∧ Mounted f'.sys p ∧ (f'.sys.ata = f.sys.ata ∨ n ≠ 0 ∧
      ∃ desc c data, fsFindFileDescriptor f fd = some desc ∧ desc.privateData.item.type = .file ∧
        desc.privateData.item.item.length = 32 ∧ FileWritten f.sys p desc.privateData n c data f'.sys) := by
  rcases fsWrite_ok hcall with ⟨-, -, rfl⟩ | ⟨hgood, ⟨-, -, rfl⟩ | ⟨desc, res, data, s, hfind, hw, -, rfl⟩⟩
  · exact ⟨h, hm, Or.inl rfl⟩
  · exact ⟨h, hm, Or.inl rfl⟩
  obtain ⟨-, -, hi⟩ := fsFind_slot hfind
  have hslot := h.slots _ _ hi
  by_cases hfile : desc.privateData.item.type = .file
  · obtain ⟨base, e, d, b, c, hnew, hwritten⟩ := hslot.written h.kernel hm hn hfile hw
    obtain ⟨hkeep, hnew', -, hlen⟩ := hwritten.keep hnew hslot.length
    refine ⟨h.update hwritten.quiet.kernel (fun j desc' _ hj x hx => hkeep x (h.held hj hx)) ?_ ?_,
      hwritten.quiet.mounted hm, Or.inr ⟨fun h0 => hgood (Or.inl h0), desc, c, data, hfind, hfile,
      hslot.length, hwritten⟩⟩
    · rintro desc' ho
      obtain rfl := Option.some_inj.mp ho
      exact ⟨hslot.disk, hlen, base, e, d, b, c, hnew'⟩
    · rintro desc' ho j desc'' hne hj
      obtain rfl := Option.some_inj.mp ho
      have hsame : objectsOf { desc with privateData := data } = objectsOf desc :=
        Set.ext fun x => hnew'.mem_objectsOf.trans hnew.mem_objectsOf.symm
      rw [hsame]
      exact h.apart _ j desc desc'' hi hj (Ne.symm hne)
  · rw [hslot.disk] at hw
    cases hfs : desc.fs
    rw [hfs] at hw
    obtain ⟨hres, rfl⟩ := EStateM.Result.ok.inj ((fat16Write_directory hfile f.sys).symm.trans hw)
    obtain ⟨-, rfl⟩ := Prod.mk.inj hres
    refine ⟨h.update h.kernel (fun j desc' _ hj x hx => h.held hj hx) ?_ ?_, hm, Or.inl rfl⟩
    · rintro desc' ho
      obtain rfl := Option.some_inj.mp ho
      exact hslot
    · rintro desc' ho j desc'' hne hj
      obtain rfl := Option.some_inj.mp ho
      exact h.apart _ j desc desc'' hi hj (Ne.symm hne)

/-- **Closing a file** lets go of its objects only, and does not change the disk. -/
theorem OpenTable.close (h : OpenTable f) (hm : Mounted f.sys p)
    (hcall : fsClose fileSystemOf fd f = .ok code f') :
    OpenTable f' ∧ Mounted f'.sys p ∧ f'.sys.ata = f.sys.ata := by
  rcases fsClose_ok hcall with ⟨-, -, rfl⟩ | ⟨desc, fs, res, s, hfind, -, -, hcase⟩
  · exact ⟨h, hm, rfl⟩
  obtain ⟨-, -, hi⟩ := fsFind_slot hfind
  obtain ⟨base, e, d, b, c, hslot⟩ := (h.slots _ _ hi).slot
  obtain ⟨rfl, hreads, -⟩ :=
    Runs.value (fsClose_runs h.kernel hslot hfind fun _ _ => trivial) hcall
  refine ⟨?_, hreads.mounted hm, hreads.ata⟩
  rcases hcase with ⟨-, hcode, -⟩ | ⟨-, -, s', -, rfl⟩
  · exact absurd hcode (by decide)
  · refine h.update hreads.kernel (fun j desc' hne hj x hx => ?_) (fun _ ho => by cases ho)
      fun _ ho => by cases ho
    refine hreads.touches.held x (fun hin => ?_) (h.held hj hx)
    exact h.apart _ j desc desc' hi hj (Ne.symm hne) x
      (hslot.mem_objectsOf.mpr (by simpa using hin)) hx

end

end KokoOs
