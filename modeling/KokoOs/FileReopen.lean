/-
# A new file, opened again

Files are looked up in the root directory that was loaded when the volume was mounted, and nothing
adds an item to that: a name that is absent stays absent.  So a file that has been made, written and
closed is not found again (`new_file_not_read_back`), whatever its write has put on the disk.

The life of a file is followed call by call: an open that makes it, any write to it, and the close
(`Saves`), each of which leaves what is mounted as it is (`Saves.mounted`).  What is to be expected of such
a file is `FindsAgain`: that it is found, has the size of its data, and reads as they are.  The first of
these already fails, for every name that the directory does not have, every data and every volume.

The name is not the only thing in the way.  The entry that is put on the disk is always that of
`KOKO.TXT`, so a mount would not find the file under its own name either.
-/
import KokoOs.FileObjects
import KokoOs.FileRead

namespace KokoOs

open Bytes Prog

/-! ## 1. The life of a new file -/

section

variable {f f1 f2 f3 : FileState FatFileDescriptor} {p : FatPrivate} {filename fd input n i : Nat}
  {name : List UInt8} {desc : FileDescriptor FatFileDescriptor}

/-- A descriptor of a file whose objects are its own. -/
structure NewFile (f : FileState FatFileDescriptor) (p : FatPrivate) (fd : Nat)
    (desc : FileDescriptor FatFileDescriptor) : Prop where
  kernel : KernelHeap f.sys.arena
  mounted : Mounted f.sys p
  found : fsFindFileDescriptor f fd = some desc
  file : desc.privateData.item.type = .file
  slot : OpenSlot f.sys.arena desc

/-- An open that makes a file makes such a descriptor, unless its slot is the last one. -/
theorem MadeFile.newFile (h : MadeFile f f1 i desc) (hm : Mounted f1.sys p) (hi : i < 1023) :
    NewFile f1 p (i + 1) desc where
  kernel := h.reads.kernel
  mounted := hm
  found := by
    rw [fsFindFileDescriptor_eq, if_pos ⟨by omega, by omega⟩, h.table]
    exact Function.update_self _ _ _
  file := h.type
  slot := ⟨h.disk, by rw [h.entry]; rfl, h.slot⟩

/-- **Writing to a new file** leaves its objects in place. -/
theorem NewFile.write (h : NewFile f p fd desc) (hn : n < 2 ^ 32) {code : Int}
    (hcall : fsWrite fileSystemOf input fd n f = .ok code f1) :
    (∃ desc', NewFile f1 p fd desc') ∧ ∃ T, Quiet T stackRange f.sys f1.sys := by
  obtain ⟨hfd, hlt, -⟩ := fsFind_slot h.found
  rcases fsWrite_ok hcall with ⟨-, -, rfl⟩ | ⟨-, ⟨hnone, -⟩ | ⟨_, res, data, s, hfind, hw, -, rfl⟩⟩
  · exact ⟨⟨desc, h⟩, ∅, Quiet.refl h.kernel _ _⟩
  · rw [h.found] at hnone
    cases hnone
  obtain rfl := Option.some_inj.mp (h.found.symm.trans hfind)
  obtain ⟨base, e, d, b, c, hslot, hwritten⟩ := h.slot.written h.kernel h.mounted hn h.file hw
  obtain ⟨-, hslot', htype, hlen⟩ := hwritten.keep hslot h.slot.length
  refine ⟨⟨{ desc with privateData := data }, hwritten.quiet.kernel, hwritten.quiet.mounted h.mounted, ?_,
    htype.trans h.file, h.slot.disk, hlen, base, e, d, b, c, hslot'⟩, _, hwritten.quiet⟩
  rw [fsFindFileDescriptor_eq, if_pos ⟨hfd, hlt⟩]
  exact Function.update_self _ _ _

/-- **Closing it** succeeds. -/
theorem NewFile.close (h : NewFile f p fd desc) : ∃ f1, fsClose fileSystemOf fd f = .ok ok f1 ∧
    ∃ T, Quiet T stackRange f.sys f1.sys := by
  obtain ⟨base, e, d, b, c, hslot⟩ := h.slot.slot
  obtain ⟨code, f1, hrun, rfl, hreads, -⟩ := Runs.total (fsClose_runs h.kernel hslot h.found
    fun hbad => by
      rw [h.slot.disk, h.mounted.fs, FatItem.FreesName, h.file] at hbad
      simp at hbad)
  exact ⟨f1, hrun, _, hreads.toQuiet.mono (Set.Subset.refl _) (Set.empty_subset _)⟩

/-! ## 2. Reading it back -/

/-- The bytes at `input` are saved: a file is opened for writing, written and closed. -/
structure Saves (f f1 f2 f3 : FileState FatFileDescriptor) (filename fd input n : Nat) : Prop where
  opened : fsOpen fileSystemOf filename .write f = .ok fd f1
  fd_ne : fd ≠ 0
  written : fsWrite fileSystemOf input fd n f1 = .ok ok f2
  closed : fsClose fileSystemOf fd f2 = .ok ok f3

/-- What is to be expected of a file that `data` have been saved in: it is found, its size is that of
the data, and a read delivers them wherever its caller wants them. -/
def FindsAgain (f : FileState FatFileDescriptor) (filename n : Nat) (data : List UInt8) : Prop :=
  ∃ fd f1 stat f2, fsOpen fileSystemOf filename .read f = .ok fd f1 ∧ fd ≠ 0 ∧
    fsStat fileSystemOf fd f1 = .ok (ok, some stat) f2 ∧ stat.size = n ∧
    ∀ out, CallersBytes f2.sys.arena out n → ∃ f3,
      fsRead fileSystemOf out fd n 1 f2 = .ok ok f3 ∧ slice f3.sys.arena.mem out n = data

/-- A name that is absent is not read back. -/
theorem not_findsAgain_of_absent (hk : KernelHeap f.sys.arena) (hm : Mounted f.sys p)
    (hpath : PathString f.sys.arena filename (pathOf 0 [name])) (hc : IsComponent name)
    (hlen : name.length ≤ 253) (habs : Absent p.rootDirectory name) (data : List UInt8) :
    ¬ FindsAgain f filename n data := by
  rintro ⟨fd, f1, -, -, hopen, hfd, -⟩
  exact hfd (Runs.value (fsOpen_read_absent hk hm hpath hc hlen habs fun _ _ => trivial) hopen)

/-- **Saving a new file does not change what is mounted.** -/
theorem Saves.mounted (h : Saves f f1 f2 f3 filename fd input n) (hk : KernelHeap f.sys.arena)
    (hm : Mounted f.sys p) (hpath : PathString f.sys.arena filename (pathOf 0 [name]))
    (hc : IsComponent name) (hlen : name.length ≤ 253) (habs : Absent p.rootDirectory name)
    (hn : n < 2 ^ 32) : KernelHeap f3.sys.arena ∧ Mounted f3.sys p := by
  -- the descriptor is that of a new file
  obtain ⟨-, -, -, -, -, ⟨hzero, -⟩ | ⟨i, _, _, _, _, _, -, rfl, hfree, -⟩⟩ :=
    fsOpen_frame hk hm hpath h.opened
  · exact absurd hzero h.fd_ne
  obtain ⟨-, desc, hmade⟩ := Runs.value (fsOpen_write_absent hk hm hpath hc hlen habs hfree
    fun _ _ => trivial) h.opened
  -- it is not in the last slot, for there it would not be found
  have hlt : i + 1 < 1024 := by
    rcases fsWrite_ok h.written with ⟨-, hcode, -⟩ | ⟨-, ⟨-, hcode, -⟩ | ⟨_, _, _, _, hfind, -⟩⟩
    · exact absurd hcode (by decide)
    · exact absurd hcode (by decide)
    · exact (fsFind_slot hfind).2.1
  have hnew := hmade.newFile (hmade.reads.mounted hm) (by omega)
  obtain ⟨⟨desc', hnew'⟩, -⟩ := hnew.write hn h.written
  obtain ⟨f', hclose, T, hquiet⟩ := hnew'.close
  obtain ⟨-, rfl⟩ := EStateM.Result.ok.inj (hclose.symm.trans h.closed)
  exact ⟨hquiet.kernel, hquiet.mounted hnew'.mounted⟩

/-- **A new file is never read back**: whatever is saved under a name that the root directory does not
have, opening the name for reading answers NULL. -/
theorem new_file_not_read_back {filename' : Nat} (hk : KernelHeap f.sys.arena) (hm : Mounted f.sys p)
    (hpath : PathString f.sys.arena filename (pathOf 0 [name])) (hc : IsComponent name)
    (hlen : name.length ≤ 253) (habs : Absent p.rootDirectory name) (hn : n < 2 ^ 32)
    (h : Saves f f1 f2 f3 filename fd input n)
    (hpath' : PathString f3.sys.arena filename' (pathOf 0 [name])) :
    ¬ FindsAgain f3 filename' n (slice f1.sys.arena.mem input n) := by
  obtain ⟨hk3, hm3⟩ := h.mounted hk hm hpath hc hlen habs hn
  exact not_findsAgain_of_absent hk3 hm3 hpath' hc hlen habs _

end

/-! ## 3. A file on a blank volume -/

/-- A byte is saved in a new file of the blank volume. -/
theorem blank_saves : ∃ s q f1 f2 f3, OnBlank s q 0x10000000 [97] ∧ Fresh f1.sys q ∧
    Saves (initFiles s) f1 f2 f3 0x10000000 1 0x10000000 1 ∧ OnBlank f3.sys q 0x10000000 [97] := by
  obtain ⟨s, f1, q, desc, c, hb, hlive, hzero⟩ := blank_live
  have hfile := Nat.le_refl 0x10000000
  obtain ⟨-, -, s2, -, f2, hwrite, -⟩ := hb.write_one hlive hzero 0x10000000
  have hnew := hb.made.newFile hb.blank.mounted (by omega)
  obtain ⟨⟨desc', hnew'⟩, T2, hquiet2⟩ := hnew.write (by decide) hwrite
  obtain ⟨f3, hclose, T3, hquiet3⟩ := hnew'.close
  exact ⟨s, q, f1, f2, f3, hb.before, hb.fresh, ⟨hb.opened, by decide, hwrite, hclose⟩,
    (hb.blank.quiet hfile hquiet2).quiet hfile hquiet3⟩

theorem new_file_not_read_back_blank : ∃ (f1 f3 : FileState FatFileDescriptor),
    ¬ FindsAgain f3 0x10000000 1 (slice f1.sys.arena.mem 0x10000000 1) := by
  obtain ⟨s, q, f1, f2, f3, hblank, -, hsaves, hblank3⟩ := blank_saves
  have hfile := Nat.le_refl 0x10000000
  have hc : IsComponent [97] := by simp [IsComponent]
  exact ⟨f1, f3, new_file_not_read_back hblank.kernel hblank.mounted (hblank.pathString hfile hc) hc
    (by decide) (absent_of_empty hblank.empty _) (by decide) hsaves (hblank3.pathString hfile hc)⟩

/-- **On a blank volume a byte is saved in `0:/a`, and the file is not found.** -/
theorem saved_file_is_lost : ¬ ∀ (f f1 f2 f3 : FileState FatFileDescriptor) (p : FatPrivate)
    (filename fd input n : Nat) (name : List UInt8), KernelHeap f.sys.arena → Mounted f.sys p →
    Fresh f1.sys p → PathString f.sys.arena filename (pathOf 0 [name]) → IsComponent name →
    name.length ≤ 8 → Absent p.rootDirectory name → 0 < n → n < 2 ^ 32 →
    Saves f f1 f2 f3 filename fd input n →
    PathString f3.sys.arena filename (pathOf 0 [name]) →
    FindsAgain f3 filename n (slice f1.sys.arena.mem input n) := by
  intro hclaim
  obtain ⟨s, q, f1, f2, f3, hblank, hfresh, hsaves, hblank3⟩ := blank_saves
  have hfile := Nat.le_refl 0x10000000
  have hc : IsComponent [97] := by simp [IsComponent]
  have habs := absent_of_empty hblank.empty [97]
  exact not_findsAgain_of_absent hblank3.kernel hblank3.mounted (hblank3.pathString hfile hc) hc
    (by decide) habs _ (hclaim _ _ _ _ _ _ _ _ _ _ hblank.kernel hblank.mounted hfresh
      (hblank.pathString hfile hc) hc (by decide) habs (by decide) (by decide) hsaves
      (hblank3.pathString hfile hc))

end KokoOs
