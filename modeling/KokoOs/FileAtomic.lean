/-
# Opening is atomic for paths that are refused

`fs_open` never frees the path it has parsed.  So whenever the path is one the parser accepts, a
block that was free before the call -- the one of the first part -- is taken after it, whatever
the file system answers (`fsOpen_keeps_part`), and `fs_close` does not give it back
(`fsClose_keeps`).  A path that the parser refuses leaves the heap as it was.

What is to be expected of a call is `OpenIsAtomic`: if it answers NULL, neither the set of taken blocks nor
the table has changed, and `fs_close` undoes any other call.  This holds exactly of the paths that are
refused (`fsOpen_atomic_iff`), on every volume, every heap and every state of the table.
The smallest loss is that of a file that is missing (`missing_file_leaks`).

On the way, `fsClose_runs` says what closing does on the disk's own file system: it releases the four
objects of the descriptor and empties its slot.
-/
import KokoOs.FileBlank

namespace KokoOs

open Bytes Prog

/-! ## 1. What opening and closing leave behind -/

/-- The blocks that are taken. -/
def takenBlocks (heap : Heap) : Set Nat :=
  {b | b < heap.table.total ∧ heapEntryIsFree (heap.table.entry b) = false}

theorem Held.taken {a : Arena} (hk : KernelHeap a) {b : Nat} (h : Held a b) :
    b ∈ takenBlocks a.heap :=
  ⟨by rw [hk.total]; exact h.lt, by rw [h.word]; decide⟩

/-- A block that was free and is taken makes a difference. -/
theorem takenBlocks_ne {a a' : Arena} (hk : KernelHeap a') {b : Nat}
    (hfree : heapEntryIsFree (a.heap.table.entry b) = true) (h : Held a' b) :
    takenBlocks a'.heap ≠ takenBlocks a.heap := by
  intro heq
  have htaken := (heq ▸ h.taken hk : b ∈ takenBlocks a.heap).2
  rw [hfree] at htaken
  cases htaken

section

variable {f f' f'' : FileState FatFileDescriptor} {p : FatPrivate} {filename fd : Nat}
  {mode : FileMode} {bytes : List UInt8}

/-- **An accepted path stays on the heap** after `fs_open`. -/
theorem fsOpen_keeps_part (hk : KernelHeap f.sys.arena) (hm : Mounted f.sys p)
    (hpath : PathString f.sys.arena filename bytes) (hv : validPath bytes)
    (h : fsOpen fileSystemOf filename mode f = .ok fd f') : ∃ fb a,
      heapEntryIsFree (f.sys.arena.heap.table.entry fb) = true ∧ Held a fb ∧
      Held f'.sys.arena fb ∧ Mounted f'.sys p ∧ KernelHeap f'.sys.arena ∧
      (fd ≠ 0 → ∃ i desc e d b c, fd = i + 1 ∧ NewSlot a f'.sys.arena desc e d b c ∧
        f'.fileDescriptors i = some desc) := by
  obtain ⟨root, a, hparse, hreads, -, hcase⟩ := fsOpen_frame hk hm hpath h
  obtain ⟨ht, ⟨hno, -⟩ | ⟨-, fb, hfree, hheld⟩⟩ := hpath.parse hk hparse
  · exact absurd hv hno
  · have hm1 : Mounted { f.sys with arena := a } p := (Reads.of_arena ht).mounted hm
    refine ⟨fb, a, hfree, hheld, hreads.touches.held fb (Set.notMem_empty fb) hheld,
      hreads.mounted hm1, hreads.kernel, fun hfd => ?_⟩
    rcases hcase with ⟨rfl, -⟩ | ⟨i, desc, e, d, b, c, -, rfl, -, hslot, htable⟩
    · exact absurd rfl hfd
    · exact ⟨i, desc, e, d, b, c, rfl, hslot, by rw [htable, Function.update_self]⟩

/-- **Closing** releases the four objects of the descriptor, and empties its slot. -/
theorem fsClose_runs {stop : Halt → Prop} {a : Arena} (hk : KernelHeap f.sys.arena) {e d b c : Nat}
    {desc : FileDescriptor FatFileDescriptor} (hslot : NewSlot a f.sys.arena desc e d b c)
    (hfound : fsFindFileDescriptor f fd = some desc)
    (hs : (f.sys.disks desc.disk).fs = none ∨ desc.privateData.item.FreesName → ∀ e, stop e) :
    Runs stop (fsClose fileSystemOf fd) f fun code f' => code = ok ∧
      Reads {e, d, b, c} ∅ f.sys f'.sys ∧
      f'.fileDescriptors = Function.update f.fileDescriptors (fd - 1) none := by
  obtain ⟨hpos, -, hi⟩ := fsFind_slot hfound
  have hsub : ({d, b, c} : Set Nat) ⊆ {e, d, b, c} := Set.subset_insert e _
  unfold fsClose
  refine Runs.get_bind ?_
  rw [hfound]
  dsimp only
  refine Runs.bind (Q := fun fs f1 => f1 = f) ?_ ?_
  · cases hfs : (f.sys.disks desc.disk).fs with
    | none =>
      refine Runs.zoom (Q := fun _ s => s = f.sys) ?_ fun _ _ h => by rw [h]
      unfold diskFs
      rw [hfs]
      exact Runs.throw (hs (Or.inl hfs) _)
    | some fs =>
      refine Runs.zoom (Q := fun _ s => s = f.sys) ?_ fun _ _ h => by rw [h]
      unfold diskFs
      rw [hfs]
      exact Runs.pure rfl
  rintro fs f1 rfl
  cases fs
  refine Runs.bind (Q := fun res f2 => res = ok ∧ Reads {d, b, c} ∅ f1.sys f2.sys ∧
    f2.fileDescriptors = f1.fileDescriptors) ?_ ?_
  · exact Runs.zoom (fat16Close_runs hk hslot.data fun hname => hs (Or.inr hname))
      fun _ _ h => ⟨h.1, h.2, rfl⟩
  rintro res f2 ⟨rfl, h2, htable2⟩
  rw [if_neg (by simp)]
  refine Runs.bind (Q := fun _ f' => Reads {e, d, b, c} ∅ f1.sys f'.sys ∧
    f'.fileDescriptors = Function.update f1.fileDescriptors (fd - 1) none) ?_
    fun _ _ h => Runs.pure ⟨rfl, h⟩
  unfold fsFreeFileDescriptor
  rw [if_neg (by omega)]
  refine Runs.get_bind ?_
  rw [htable2, hi]
  dsimp only
  have he2 : Held f2.sys.arena e := h2.touches.held e hslot.apart hslot.held.1
  rw [hslot.address]
  refine Runs.bind (Q := fun _ f3 => Reads {e, d, b, c} ∅ f1.sys f3.sys ∧
    f3.fileDescriptors = f1.fileDescriptors) ?_ ?_
  · refine Runs.zoom (Sys.free_runs h2.kernel he2) fun _ s h => ⟨?_, htable2⟩
    exact (h2.mono hsub (Set.Subset.refl _)).trans (h.1.mono (by simp) (Set.Subset.refl _))
  rintro - f3 ⟨h3, htable3⟩
  refine Runs.bind (Runs.modify (Q := fun _ f' => f'.sys = f3.sys ∧ f'.fileDescriptors =
    Function.update f1.fileDescriptors (fd - 1) none) ⟨rfl, by rw [htable3]⟩) ?_
  rintro - f4 ⟨hsys, htable4⟩
  exact Runs.pure ⟨hsys ▸ h3, htable4⟩

/-- **An accepted path is still there after `fs_close`**, which releases objects of the descriptor only. -/
theorem fsClose_keeps {a : Arena} (hk : KernelHeap f.sys.arena) {i e d b c : Nat}
    {desc : FileDescriptor FatFileDescriptor} (hslot : NewSlot a f.sys.arena desc e d b c)
    (hi : f.fileDescriptors i = some desc) {fb : Nat} (hfb : Held a fb)
    (hheld : Held f.sys.arena fb) (h : fsClose fileSystemOf (i + 1) f = .ok ok f') :
    KernelHeap f'.sys.arena ∧ Held f'.sys.arena fb := by
  rcases fsClose_ok h with ⟨-, hcode, -⟩ | ⟨desc', _, _, _, hfind, -⟩
  · exact absurd hcode (by decide)
  obtain rfl : desc = desc' := Option.some_inj.mp (hi.symm.trans (fsFind_slot hfind).2.2)
  obtain ⟨-, hreads, -⟩ := Runs.value (fsClose_runs hk hslot hfind fun _ _ => trivial) h
  refine ⟨hreads.kernel, hreads.touches.held fb ?_ hheld⟩
  rintro (rfl | hin)
  · exact hslot.held.2 hfb
  · exact (hslot.data.held fb hin).2 hfb

/-! ## 2. When opening is atomic -/

/-- What is to be expected of `fs_open`: a call that answers NULL has changed neither the set of
taken blocks nor the table, and `fs_close` undoes any other call. -/
def OpenIsAtomic (f : FileState FatFileDescriptor) (fd : Nat) (f' : FileState FatFileDescriptor) :
    Prop :=
  (fd = 0 → takenBlocks f'.sys.arena.heap = takenBlocks f.sys.arena.heap ∧
    f'.fileDescriptors = f.fileDescriptors) ∧
  (fd ≠ 0 → ∃ f'', fsClose fileSystemOf fd f' = .ok ok f'' ∧
    takenBlocks f''.sys.arena.heap = takenBlocks f.sys.arena.heap ∧
    f''.fileDescriptors = f.fileDescriptors)

/-- A path that is refused changes nothing. -/
theorem fsOpen_refused (hk : KernelHeap f.sys.arena) (hm : Mounted f.sys p)
    (hpath : PathString f.sys.arena filename bytes) (hv : ¬ validPath bytes)
    (h : fsOpen fileSystemOf filename mode f = .ok fd f') : OpenIsAtomic f fd f' := by
  obtain ⟨root, a, hparse, -, -, hcase⟩ := fsOpen_frame hk hm hpath h
  obtain ⟨-, ⟨-, hroot, hheap⟩ | ⟨hyes, -⟩⟩ := hpath.parse hk hparse
  · rcases hcase with ⟨rfl, htable, ha⟩ | ⟨i, desc, e, d, b, c, hne, -⟩
    · refine ⟨fun _ => ⟨?_, htable⟩, fun hne => absurd rfl hne⟩
      rw [ha hroot, hheap]
    · exact absurd hroot hne
  · exact absurd hyes hv

/-- An accepted path is lost. -/
theorem fsOpen_leaks (hk : KernelHeap f.sys.arena) (hm : Mounted f.sys p)
    (hpath : PathString f.sys.arena filename bytes) (hv : validPath bytes)
    (h : fsOpen fileSystemOf filename mode f = .ok fd f') : ¬ OpenIsAtomic f fd f' := by
  obtain ⟨fb, a, hfree, hheld, hheld', -, hk', hslot⟩ := fsOpen_keeps_part hk hm hpath hv h
  rintro ⟨hnull, hclose⟩
  by_cases hfd : fd = 0
  · exact takenBlocks_ne hk' hfree hheld' (hnull hfd).1
  · obtain ⟨i, desc, e, d, b, c, rfl, hslot, hi⟩ := hslot hfd
    obtain ⟨f'', hrun, htaken, -⟩ := hclose hfd
    obtain ⟨hk'', hheld''⟩ := fsClose_keeps hk' hslot hi hheld hheld' hrun
    exact takenBlocks_ne hk'' hfree hheld'' htaken

/-- **Opening is atomic exactly for the paths that the parser refuses.** -/
theorem fsOpen_atomic_iff (hk : KernelHeap f.sys.arena) (hm : Mounted f.sys p)
    (hpath : PathString f.sys.arena filename bytes)
    (h : fsOpen fileSystemOf filename mode f = .ok fd f') :
    OpenIsAtomic f fd f' ↔ ¬ validPath bytes :=
  ⟨fun hatomic hv => fsOpen_leaks hk hm hpath hv h hatomic,
    fun hv => fsOpen_refused hk hm hpath hv h⟩

end

/-- `0:/a` is opened for reading on a blank volume, and there is no such file. -/
theorem missing_file : ∃ s q f', fat16Resolve primaryDisk (blankSys 0x10000000 [97]) = .ok ok s ∧
    OnBlank s q 0x10000000 [97] ∧ PathString s.arena 0x10000000 (pathOf 0 [[97]]) ∧
    fsOpen fileSystemOf 0x10000000 .read (initFiles s) = .ok 0 f' := by
  have hfile := Nat.le_refl 0x10000000
  have hc : IsComponent [97] := by simp [IsComponent]
  obtain ⟨s, q, hmount, hblank, -, -, hcard⟩ := blank_mounts hfile [97]
  have hcard' : 8 ≤ (freeBlocks (initFiles s).sys.arena.heap).card := Nat.le_trans (by omega) hcard
  obtain ⟨f', hopen⟩ := fsOpen_read_blank (f := initFiles s) hblank hfile hc (by decide) hcard'
  exact ⟨s, q, f', hmount, hblank, hblank.pathString hfile hc, hopen⟩

/-- The path of a missing file is accepted, so opening it is not atomic. -/
theorem fsOpen_atomic_iff_missing : ∃ s f',
    fat16Resolve primaryDisk (blankSys 0x10000000 [97]) = .ok ok s ∧
    (OpenIsAtomic (initFiles s) 0 f' ↔ ¬ validPath (pathOf 0 [[97]])) := by
  obtain ⟨s, q, f', hmount, hblank, hpath, hopen⟩ := missing_file
  exact ⟨s, f', hmount, fsOpen_atomic_iff hblank.kernel hblank.mounted hpath hopen⟩

/-- A call that answers NULL for a missing file has taken blocks. -/
theorem missing_file_leaks : ∃ s f',
    fat16Resolve primaryDisk (blankSys 0x10000000 [97]) = .ok ok s ∧
    fsOpen fileSystemOf 0x10000000 .read (initFiles s) = .ok 0 f' ∧
    takenBlocks f'.sys.arena.heap ≠ takenBlocks s.arena.heap := by
  obtain ⟨s, q, f', hmount, hblank, hpath, hopen⟩ := missing_file
  have hv : validPath (pathOf 0 [[97]]) := ⟨by decide, by decide, rfl, rfl⟩
  obtain ⟨fb, a, hfree, -, hheld, -, hk', -⟩ :=
    fsOpen_keeps_part hblank.kernel hblank.mounted hpath hv hopen
  exact ⟨s, f', hmount, hopen, takenBlocks_ne hk' hfree hheld⟩

end KokoOs
