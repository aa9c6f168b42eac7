/-
# Runs of all the calls on files

The theorems on single calls speak about one call, and those on runs so far about runs of some of
them: opening and closing, or writing, or reading and seeking.  This file takes all six calls
together, with any arguments that a caller may pass (`Promised`), in any order, and between two of
them whatever the rest of the kernel does with memory of its own (`KernelMove.client`).

* **The state.**  `Working` is the invariant of all runs: the table of descriptors is one of open files
  whose objects are apart (`OpenTable`), the volume is mounted, and no position is behind the end of its
  file.
* **A move.**  One lemma for each call says that it keeps the invariant and touches nothing but the
  objects of the open files and its own targets (`Working.openFile`, `Working.read`, `Working.write`,
  `Working.seek`, `Working.close`).  What it opens is new: a block that is held before the call and
  belongs to no open file belongs to none afterwards.  `KernelStep.keeps` puts the six together, with
  the move of a client beside them.
* **What runs keep.**  An allocation that is not an open file's, and not a target of the move either,
  stays allocated and keeps its bytes, and no file that is opened takes it (`Undisturbed.step`).  The
  tables that are in memory for good -- the page directory and its tables, the mounted disk -- are such
  allocations, and the theorems about them are inductions with this step.

The targets of a read are the blocks that its buffer lies in, and not the buffer alone: an allocation is
left alone as a whole or not at all.
-/
import KokoOs.FileApart
import KokoOs.FileIndependent
import KokoOs.Fat16Seek

namespace KokoOs

open Bytes Prog

/-! ## 1. Steps -/

/-- The objects of the open files. -/
def openObjects (f : FileState FatFileDescriptor) : Set Nat :=
  {x | ∃ i desc, f.fileDescriptors i = some desc ∧ x ∈ objectsOf desc}

/-- What the caller of a call promises: a path is a string of live memory, bytes are read into memory
of the caller's, and sizes have 32 bits. -/
def Promised (f : FileState FatFileDescriptor) : FileCall → Prop
  | .openFile filename _ => ∃ bytes, PathString f.sys.arena filename bytes
  | .read ptr _ size nmemb => size ≠ 0 → nmemb ≠ 0 → CallersBytes f.sys.arena ptr (nmemb * size)
  | .write _ _ n => n < 2 ^ 32
  | _ => True

/-- A move of the kernel: a call on files, or something that touches the blocks in `T`. -/
inductive KernelMove where
  | call (call : FileCall)
  | client (T : Set Nat)

/-- The blocks that a move may rewrite, other than those of the open files. -/
def KernelMove.targets : KernelMove → Set Nat
  | .call (.read ptr _ size nmemb) =>
    {b | ∃ x ∈ Set.Ico ptr (ptr + nmemb * size), blockAt b ≤ x ∧ x < blockAt b + 4096}
  | .call _ => ∅
  | .client T => T

/-- A move that is made: a call that returns, or any change of the heap and of memory that leaves the
objects of the open files alone. -/
inductive KernelStep (f : FileState FatFileDescriptor) :
    KernelMove → FileState FatFileDescriptor → Prop
  | call {call : FileCall} {ans : Int × Option FileStat} {f' : FileState FatFileDescriptor} :
      Promised f call → runCall fileSystemOf call f = .ok ans f' → KernelStep f (.call call) f'
  | client {T : Set Nat} {a : Arena} :
      Touches T Set.univ f.sys.arena a → (∀ x ∈ T, x ∉ openObjects f) →
      KernelStep f (.client T) { f with sys := { f.sys with arena := a } }

/-- What the driver reads of the volume it has mounted. -/
structure Readable (p : FatPrivate) : Prop where
  byte : p.header.sectorsPerCluster < 256
  items : ∀ item ∈ p.rootDirectory.loaded, item.length = 32

/-- The invariant of all runs. -/
structure Working (f : FileState FatFileDescriptor) (p : FatPrivate) : Prop where
  table : OpenTable f
  mounted : Mounted f.sys p
  positions : ∀ i desc, f.fileDescriptors i = some desc → desc.privateData.pos < 2 ^ 32

/-- What a move has done: it has touched the open files and its targets only, and what it has opened is
made of new objects. -/
structure Stepped (f : FileState FatFileDescriptor) (p : FatPrivate) (T : Set Nat)
    (f' : FileState FatFileDescriptor) : Prop where
  working : Working f' p
  touches : Touches (openObjects f ∪ T) Set.univ f.sys.arena f'.sys.arena
  objects : ∀ x ∈ openObjects f', Held f.sys.arena x → x ∈ openObjects f

section

variable {f f' : FileState FatFileDescriptor} {p : FatPrivate} {s' : Sys} {T W : Set Nat}

theorem mem_openObjects {i x : Nat} {desc : FileDescriptor FatFileDescriptor}
    (hi : f.fileDescriptors i = some desc) (hx : x ∈ objectsOf desc) : x ∈ openObjects f :=
  ⟨i, desc, hi, hx⟩

/-- An object of the table after slot `i` has changed. -/
theorem openObjects_update {o : Option (FileDescriptor FatFileDescriptor)} {i x : Nat}
    (hx : x ∈ openObjects ⟨s', f.fileSystems, Function.update f.fileDescriptors i o⟩) :
    x ∈ openObjects f ∨ ∃ desc, o = some desc ∧ x ∈ objectsOf desc := by
  obtain ⟨j, desc, hj, hx⟩ := hx
  dsimp only at hj
  by_cases hne : j = i
  · rw [hne, Function.update_self] at hj
    exact Or.inr ⟨desc, hj, hx⟩
  · rw [Function.update_of_ne hne] at hj
    exact Or.inl ⟨j, desc, hj, hx⟩

/-- The positions after slot `i` has changed. -/
theorem positions_update {o : Option (FileDescriptor FatFileDescriptor)} {i : Nat}
    (h : ∀ i desc, f.fileDescriptors i = some desc → desc.privateData.pos < 2 ^ 32)
    (ho : ∀ desc, o = some desc → desc.privateData.pos < 2 ^ 32) :
    ∀ j desc, Function.update f.fileDescriptors i o j = some desc →
      desc.privateData.pos < 2 ^ 32 := by
  intro j desc hj
  by_cases hne : j = i
  · rw [hne, Function.update_self] at hj
    exact ho desc hj
  · rw [Function.update_of_ne hne] at hj
    exact h j desc hj

theorem Stepped.refl (h : Working f p) (T : Set Nat) : Stepped f p T f :=
  ⟨h, Touches.refl h.table.kernel _ _, fun _ hx _ => hx⟩

/-- A call that leaves the table as it is. -/
theorem Stepped.same_table (h : Working f p) (hm : Mounted s' p)
    (ht : Touches T W f.sys.arena s'.arena)
    (hkeep : ∀ x ∈ openObjects f, Held s'.arena x) : Stepped f p T { f with sys := s' } := by
  refine ⟨⟨⟨ht.kernel, fun i desc hi => (h.table.slots i desc hi).keep fun x hx _ =>
    hkeep x (mem_openObjects hi hx), h.table.apart⟩, hm, h.positions⟩,
    ht.mono Set.subset_union_right (Set.subset_univ _), fun x hx _ => hx⟩

/-! ## 2. The calls -/

variable {fd n : Nat} {mode : FileMode}

/-- **Opening** makes a descriptor of new objects. -/
theorem Working.openFile (h : Working f p) (hp : Readable p) {filename : Nat} {bytes : List UInt8}
    (hpath : PathString f.sys.arena filename bytes)
    (hcall : fsOpen fileSystemOf filename mode f = .ok fd f') : Stepped f p ∅ f' := by
  obtain ⟨htable, hm, -⟩ := h.table.openFile h.mounted hpath hp.items hcall
  obtain ⟨root, a, hparse, hreads, -, hframe⟩ := fsOpen_frame h.table.kernel h.mounted hpath hcall
  obtain ⟨ht, -⟩ := hpath.parse h.table.kernel hparse
  have htouches : Touches ∅ Set.univ f.sys.arena f'.sys.arena :=
    (ht.mono (Set.Subset.refl _) (Set.subset_univ _)).trans
      (hreads.touches.mono (Set.Subset.refl _) (Set.subset_univ _))
  refine ⟨⟨htable, hm, ?_⟩, htouches.mono (Set.empty_subset _) (Set.Subset.refl _), ?_⟩
  · obtain ⟨root', a', -, ⟨-, rfl⟩ | ⟨disk, fs, r, s, hasked, ⟨-, rfl⟩ |
      ⟨data, i, address, s', rfl, -, -, -, rfl⟩⟩⟩ := fsOpen_ok hcall
    · exact h.positions
    · exact h.positions
    · refine positions_update h.positions fun desc ho => ?_
      obtain rfl := Option.some_inj.mp ho
      cases fs
      change data.pos < 2 ^ 32
      rw [fat16Open_pos hasked.answered]
      decide
  · rintro x ⟨j, desc', hj, hx⟩ hheld
    rcases hframe with ⟨-, hsame, -⟩ | ⟨i, desc, e, d, b, c, -, -, -, hslot, hsame⟩
    · exact mem_openObjects (hsame ▸ hj) hx
    · rw [hsame] at hj
      by_cases hne : j = i
      · rw [hne, Function.update_self] at hj
        obtain rfl := Option.some_inj.mp hj
        exact absurd (ht.held x (Set.notMem_empty x) hheld) (hslot.held_objects hx).2
      · rw [Function.update_of_ne hne] at hj
        exact mem_openObjects hj hx

/-- What reading does to the system: it transfers bytes to the caller, if it does anything. -/
theorem fsRead_transfers (h : Working f p) (hp : Readable p) {ptr size nmemb : Nat} {code : Int}
    (hown : size ≠ 0 → nmemb ≠ 0 → CallersBytes f.sys.arena ptr (nmemb * size))
    (hcall : fsRead fileSystemOf ptr fd size nmemb f = .ok code f') :
    f' = f ∨ ∃ s, f' = { f with sys := s } ∧ Transfers (readRange ptr (nmemb * size)) f.sys s := by
  rcases fsRead_ok hcall with ⟨-, -, rfl⟩ | ⟨hgood, ⟨-, -, rfl⟩ |
    ⟨desc, res, data, s, hfind, hread, -, rfl⟩⟩
  · exact Or.inl rfl
  · exact Or.inl rfl
  rw [not_or, not_or] at hgood
  obtain ⟨hsize, hnmemb, -⟩ := hgood
  obtain ⟨-, -, hi⟩ := fsFind_slot hfind
  have hown := hown hsize hnmemb
  rw [(h.table.slots _ _ hi).disk] at hread
  cases hfs : desc.fs
  rw [hfs] at hread
  obtain ⟨res', s1, hloop, hpure⟩ := (bind_ok_iff
    (fat16Read primaryDisk ptr desc.privateData size nmemb) _ _ _ _).mp hread
  obtain ⟨hpair, rfl⟩ := (pure_ok_iff _ _ _ _).mp hpure
  obtain ⟨-, rfl⟩ := Prod.mk.inj hpair
  have hsame : Function.update f.fileDescriptors (fd - 1)
      (some { desc with privateData := desc.privateData }) = f.fileDescriptors := by
    rw [← hi, Function.update_eq_self]
  rw [hsame]
  unfold fat16Read at hloop
  split at hloop
  · obtain ⟨-, rfl⟩ := (pure_ok_iff _ _ _ _).mp hloop
    exact Or.inl rfl
  · exact Or.inr ⟨_, rfl, (readLoop_bytes hp.byte (Nat.pos_of_ne_zero hsize) h.table.kernel h.mounted
      (h.positions _ _ hi) hown hloop).2.1⟩

/-- **Reading** rewrites the bytes of the caller. -/
theorem Working.read (h : Working f p) (hp : Readable p) {ptr size nmemb : Nat} {code : Int}
    (hown : size ≠ 0 → nmemb ≠ 0 → CallersBytes f.sys.arena ptr (nmemb * size))
    (hcall : fsRead fileSystemOf ptr fd size nmemb f = .ok code f') :
    Stepped f p (KernelMove.call (.read ptr fd size nmemb)).targets f' := by
  rcases fsRead_transfers h hp hown hcall with rfl | ⟨s, rfl, htransfers⟩
  · exact Stepped.refl h _
  have ht := htransfers.frame.touches h.table.kernel htransfers.kernel
  refine Stepped.same_table h (htransfers.mounted h.mounted)
    (ht.mono ?_ (Set.Subset.refl _)) fun x hx => ?_
  · rintro b ⟨x, hstack | hrange, hlo, hhi⟩
    · -- the local of the driver is not in the heap
      have hx := Set.mem_Ico.mp hstack
      simp only [blockAt, memoryHeapStartAddress, stackBuffer] at hx hlo
      omega
    · exact ⟨x, hrange, hlo, hhi⟩
  · obtain ⟨i, desc', hi', hx⟩ := hx
    exact htransfers.frame.held h.table.kernel (h.table.held hi' hx)

/-- **Writing** touches the entry in memory. -/
theorem Working.write (h : Working f p) {input : Nat} {code : Int} (hn : n < 2 ^ 32)
    (hcall : fsWrite fileSystemOf input fd n f = .ok code f') : Stepped f p ∅ f' := by
  obtain ⟨htable, hm, -⟩ := h.table.write h.mounted hn hcall
  rcases fsWrite_ok hcall with ⟨-, -, rfl⟩ | ⟨-, ⟨-, -, rfl⟩ | ⟨desc, res, data, s, hfind, hw, -, rfl⟩⟩
  · exact Stepped.refl h _
  · exact Stepped.refl h _
  obtain ⟨-, -, hi⟩ := fsFind_slot hfind
  have hslot := h.table.slots _ _ hi
  by_cases hfile : desc.privateData.item.type = .file
  · obtain ⟨base, e, d, b, c, hnew, hwritten⟩ := hslot.written h.table.kernel h.mounted hn hfile hw
    obtain ⟨-, hnew', -, -⟩ := hwritten.keep hnew hslot.length
    have hpos : data.pos = desc.privateData.pos := by
      obtain ⟨item, s1, rfl, -⟩ := hwritten.written
      rfl
    refine ⟨⟨htable, hm, positions_update h.positions fun desc' ho => ?_⟩,
      hwritten.quiet.touches.mono ?_ (Set.subset_univ _), fun x hx _ => ?_⟩
    · obtain rfl := Option.some_inj.mp ho
      exact hpos ▸ h.positions _ _ hi
    · rintro x hx
      obtain rfl := Set.mem_singleton_iff.mp hx
      exact Or.inl (mem_openObjects hi (hnew.mem_objectsOf.mpr (by simp)))
    · rcases openObjects_update hx with hx | ⟨desc', ho, hx⟩
      · exact hx
      · obtain rfl := Option.some_inj.mp ho
        exact mem_openObjects hi (hnew.mem_objectsOf.mpr (hnew'.mem_objectsOf.mp hx))
  · rw [hslot.disk] at hw
    cases hfs : desc.fs
    rw [hfs] at hw
    obtain ⟨hres, rfl⟩ := EStateM.Result.ok.inj ((fat16Write_directory hfile f.sys).symm.trans hw)
    obtain ⟨-, rfl⟩ := Prod.mk.inj hres
    have hsame : Function.update f.fileDescriptors (fd - 1)
        (some { desc with privateData := desc.privateData }) = f.fileDescriptors := by
      rw [← hi, Function.update_eq_self]
    rw [hsame]
    exact Stepped.refl h _

theorem fat16Seek_address (data : FatFileDescriptor) (offset : Nat) (mode : SeekMode) :
    (fat16Seek data offset mode).2.address = data.address := by
  unfold fat16Seek
  split
  · rfl
  · split
    · rfl
    · cases mode with
      | cur =>
        dsimp only
        split <;> rfl
      | _ => rfl

/-- What seeking does to the system: it stores a descriptor again, if it does anything. -/
theorem fsSeek_stores {offset : Nat} {smode : SeekMode} {code : Int}
    (hcall : fsSeek fileSystemOf fd offset smode f = .ok code f') : f' = f ∨ ∃ desc,
      f.fileDescriptors (fd - 1) = some desc ∧
      f' = ⟨f.sys, f.fileSystems, Function.update f.fileDescriptors (fd - 1)
        (some { desc with privateData := (fat16Seek desc.privateData offset smode).2 })⟩ := by
  rcases fsSeek_ok hcall with ⟨-, -, rfl⟩ | ⟨desc, fs, data, s, hfind, -, hs, rfl⟩
  · exact Or.inl rfl
  · cases fs
    obtain ⟨hpair, rfl⟩ := (pure_ok_iff _ _ _ _).mp hs
    obtain rfl : (fat16Seek desc.privateData offset smode).2 = data := congrArg Prod.snd hpair
    exact Or.inr ⟨desc, (fsFind_slot hfind).2.2, rfl⟩

/-- **Seeking** changes a position. -/
theorem Working.seek (h : Working f p) {offset : Nat} {smode : SeekMode} {code : Int}
    (hcall : fsSeek fileSystemOf fd offset smode f = .ok code f') : Stepped f p ∅ f' := by
  rcases fsSeek_stores hcall with rfl | ⟨desc, hi, rfl⟩
  · exact Stepped.refl h _
  obtain ⟨hitem, hpos⟩ := fat16Seek_leaves desc.privateData offset smode
  have haddress := fat16Seek_address desc.privateData offset smode
  generalize (fat16Seek desc.privateData offset smode).2 = data at *
  have hobjects : objectsOf { desc with privateData := data } = objectsOf desc := by
    unfold objectsOf
    dsimp only
    rw [hitem, haddress]
  obtain ⟨base, e, d, b, c, hslot⟩ := (h.table.slots _ _ hi).slot
  have hslot' : NewSlot base f.sys.arena { desc with privateData := data } e d b c := by
    refine ⟨⟨haddress.trans hslot.data.address, ?_, ?_, hslot.data.apart, hslot.data.held⟩,
      hslot.address, hslot.held, hslot.apart⟩
    · exact (congrArg FatItem.address hitem).trans hslot.data.itemBlock
    · exact (congrArg FatItem.itemAddress hitem).trans hslot.data.entryBlock
  refine ⟨⟨h.table.update h.table.kernel (fun j desc' _ hj x hx => h.table.held hj hx) ?_ ?_,
    h.mounted, positions_update h.positions fun desc' ho => ?_⟩, Touches.refl h.table.kernel _ _,
    fun x hx _ => ?_⟩
  · rintro desc' ho
    obtain rfl := Option.some_inj.mp ho
    refine ⟨(h.table.slots _ _ hi).disk, ?_, base, e, d, b, c, hslot'⟩
    change data.item.item.length = 32
    rw [hitem]
    exact (h.table.slots _ _ hi).length
  · rintro desc' ho j desc'' hne hj
    obtain rfl := Option.some_inj.mp ho
    rw [hobjects]
    exact h.table.apart _ j desc desc'' hi hj (Ne.symm hne)
  · obtain rfl := Option.some_inj.mp ho
    exact hpos (h.positions _ _ hi)
  · rcases openObjects_update hx with hx | ⟨desc', ho, hx⟩
    · exact hx
    · obtain rfl := Option.some_inj.mp ho
      exact mem_openObjects hi (hobjects ▸ hx)

/-- **Closing** lets go of the objects of a descriptor. -/
theorem Working.close (h : Working f p) {code : Int}
    (hcall : fsClose fileSystemOf fd f = .ok code f') : Stepped f p ∅ f' := by
  obtain ⟨htable, hm, -⟩ := h.table.close h.mounted hcall
  rcases fsClose_ok hcall with ⟨-, -, rfl⟩ | ⟨desc, fs, res, s, hfind, -⟩
  · exact Stepped.refl h _
  obtain ⟨-, -, hi⟩ := fsFind_slot hfind
  obtain ⟨base, e, d, b, c, hslot⟩ := (h.table.slots _ _ hi).slot
  obtain ⟨-, hreads, hsame⟩ :=
    Runs.value (fsClose_runs h.table.kernel hslot hfind fun _ _ => trivial) hcall
  refine ⟨⟨htable, hm, ?_⟩, hreads.touches.mono ?_ (Set.subset_univ _), ?_⟩
  · rw [hsame]
    exact positions_update h.positions fun _ ho => by cases ho
  · exact fun x hx => Or.inl (mem_openObjects hi (hslot.mem_objectsOf.mpr (by simpa using hx)))
  · rintro x ⟨j, desc', hj, hx⟩ -
    rw [hsame] at hj
    by_cases hne : j = fd - 1
    · rw [hne, Function.update_self] at hj
      cases hj
    · rw [Function.update_of_ne hne] at hj
      exact mem_openObjects hj hx

/-- **What a move can do.** -/
theorem KernelStep.keeps {move : KernelMove} (hstep : KernelStep f move f') (hp : Readable p)
    (h : Working f p) : Stepped f p move.targets f' := by
  cases hstep with
  | @client T a ht hoff =>
    refine Stepped.same_table h (h.mounted.congr rfl fun _ hst => hst) ht fun x hx => ?_
    obtain ⟨i, desc, hi, hx'⟩ := hx
    exact ht.held x (fun hin => hoff x hin ⟨i, desc, hi, hx'⟩) (h.table.held hi hx')
  | @call call ans f' hpromised hrun =>
    cases call with
    | openFile filename mode =>
      obtain ⟨bytes, hpath⟩ := hpromised
      obtain ⟨fd, hopen, -⟩ := (bind_pure_ok_iff _ _ _ _ _).mp hrun
      exact h.openFile hp hpath hopen
    | read ptr fd size nmemb =>
      obtain ⟨code, hread, -⟩ := (bind_pure_ok_iff _ _ _ _ _).mp hrun
      exact h.read hp hpromised hread
    | write input fd n =>
      obtain ⟨code, hwrite, -⟩ := (bind_pure_ok_iff _ _ _ _ _).mp hrun
      exact h.write hpromised hwrite
    | seek fd offset mode =>
      obtain ⟨code, hseek, -⟩ := (bind_pure_ok_iff _ _ _ _ _).mp hrun
      exact h.seek hseek
    | stat fd =>
      rcases fsStat_ok hrun with ⟨-, -, rfl⟩ | ⟨desc, fs, s, -, -, hs, rfl⟩
      · exact Stepped.refl h _
      · cases fs
        obtain ⟨-, rfl⟩ := (pure_ok_iff _ _ _ _).mp hs
        exact Stepped.refl h _
    | close fd =>
      obtain ⟨code, hclose, -⟩ := (bind_pure_ok_iff _ _ _ _ _).mp hrun
      exact h.close hclose

/-- A block that is not an open file's is given back by a client that has it, and by nobody else. -/
theorem KernelStep.holds {move : KernelMove} (hstep : KernelStep f move f') (hp : Readable p)
    (h : Working f p) {b : Nat} (hb : Held f.sys.arena b) (hopen : b ∉ openObjects f)
    (hclient : ∀ T, move = .client T → b ∉ T) : Held f'.sys.arena b := by
  by_cases htarget : b ∈ move.targets
  · cases hstep with
    | client ht => exact ht.held b (hclient _ rfl) hb
    | @call call ans f' hpromised hrun =>
      cases call with
      | read ptr fd size nmemb =>
        -- its bytes are rewritten, and it stays
        obtain ⟨code, hread, -⟩ := (bind_pure_ok_iff _ _ _ _ _).mp hrun
        rcases fsRead_transfers h hp hpromised hread with rfl | ⟨s, rfl, htransfers⟩
        · exact hb
        · exact htransfers.frame.held h.table.kernel hb
      | _ => exact absurd htarget (Set.notMem_empty b)
  · refine (hstep.keeps hp h).touches.held b ?_ hb
    rintro (hin | hin)
    · exact hopen hin
    · exact htarget hin

/-! ## 3. Allocations that are not the open files' -/

/-- The allocations at the blocks `K` are what they were, and no open file has taken one of them. -/
structure Undisturbed (K : Set Nat) (f f' : FileState FatFileDescriptor) : Prop where
  held : ∀ b ∈ K, Held f'.sys.arena b
  bytes : ∀ b ∈ K, ∀ j < 4096, f'.sys.arena.mem (blockAt b + j) = f.sys.arena.mem (blockAt b + j)
  apart : ∀ b ∈ K, b ∉ openObjects f'

variable {f0 : FileState FatFileDescriptor} {K : Set Nat} {move : KernelMove}

/-- The move has none of the blocks for its target. -/
def KernelMove.Spares (K : Set Nat) (move : KernelMove) : Prop := ∀ b ∈ K, b ∉ move.targets

/-- One move. -/
theorem Undisturbed.step (h : Undisturbed K f0 f) (hp : Readable p) (hw : Working f p)
    (hspare : move.Spares K) (hstep : KernelStep f move f') : Undisturbed K f0 f' := by
  have hs := hstep.keeps hp hw
  have hoff : ∀ b ∈ K, b ∉ openObjects f ∪ move.targets := by
    rintro b hb (hopen | htarget)
    · exact h.apart b hb hopen
    · exact hspare b hb htarget
  refine ⟨fun b hb => hs.touches.held b (hoff b hb) (h.held b hb), fun b hb j hj => ?_,
    fun b hb hopen => h.apart b hb (hs.objects b hopen (h.held b hb))⟩
  rw [hs.touches.bytes b (hoff b hb) (h.held b hb) j hj]
  exact h.bytes b hb j hj

end

end KokoOs
