/-
# What the calls on files do

Every call is taken apart once: what has run below the table of descriptors, and what has become
of the table.  The lemmas hold over any file system, and nothing after this file opens one of the calls
again.

* **The table.**  The search for a slot finds the first one that is free (`fsFreeSlotLoop_spec`), and a
  descriptor that is looked up is found in its slot, unless the index is taken for an invalid one
  (`fsFindFileDescriptor_eq`).
* **Opening.**  `fsOpen_cases`: NULL, because the path does not reach a file system or because of the
  answer of that, or a new descriptor in the first free slot.
* **The other calls.**  A descriptor that is not found changes nothing.  On any other, the file system has
  been asked; what it answered is kept by `fs_seek`, `fs_stat` and `fs_close`, and dropped by `fs_read`
  and `fs_write` (`fsRead_ok`, `fsWrite_ok`).
-/
import KokoOs.DiskStreamSpec
import KokoOs.File

namespace KokoOs

open Bytes

section

variable {δ : Type} {f f' : FileState δ}

theorem onSys_ok_iff {α : Type} {m : SysM α} {x : α} :
    (onSys m : FileM δ α) f = .ok x f' ↔ ∃ s, m f.sys = .ok x s ∧ { f with sys := s } = f' :=
  Prog.zoom_ok_iff

@[simp] theorem setFileDescriptor_ok_iff {i : Nat} {desc : Option (FileDescriptor δ)} {u : Unit} :
    setFileDescriptor i desc f = .ok u f' ↔
      f' = { f with fileDescriptors := Function.update f.fileDescriptors i desc } := by
  unfold setFileDescriptor
  rw [Prog.modify_ok_iff, eq_comm]

@[simp] theorem orFault_ok_iff {α : Type} {o : Option α} {x : α} {s s' : Sys} :
    orFault o s = .ok x s' ↔ o = some x ∧ s = s' := by
  cases o with
  | none =>
    refine iff_of_false (fun h => ?_) fun h => by cases h.1
    exact (Prog.throw_ok_iff _ _ _ _).mp h
  | some y =>
    rw [Option.some_inj]
    exact Prog.pure_ok_iff y x s s'

/-! ## 1. The table of descriptors -/

/-- **The search for a slot** finds the first one that is free, if there is one. -/
theorem fsFreeSlotLoop_spec {table : Nat → Option (FileDescriptor δ)} : ∀ {fuel i : Nat},
    match fsFreeSlotLoop table fuel i with
    | none => ∀ j, i ≤ j → j < i + fuel → table j ≠ none
    | some j => i ≤ j ∧ j < i + fuel ∧ table j = none ∧ ∀ k, i ≤ k → k < j → table k ≠ none
  | 0, i => fun j h1 h2 => absurd h2 (by omega)
  | fuel + 1, i => by
    unfold fsFreeSlotLoop
    cases hi : table i with
    | none =>
      rw [if_neg (by simp)]
      exact ⟨Nat.le_refl i, by omega, hi, fun k h1 h2 => absurd h2 (by omega)⟩
    | some desc =>
      rw [if_pos Option.isSome_some]
      have ih := @fsFreeSlotLoop_spec table fuel (i + 1)
      have hne : table i ≠ none := by
        rw [hi]
        exact Option.some_ne_none desc
      cases hloop : fsFreeSlotLoop table fuel (i + 1) with
      | none =>
        rw [hloop] at ih
        intro j h1 h2
        rcases Nat.eq_or_lt_of_le h1 with rfl | hlt
        · exact hne
        · exact ih j hlt (by omega)
      | some j =>
        rw [hloop] at ih
        obtain ⟨h1, h2, h3, h4⟩ := ih
        refine ⟨by omega, by omega, h3, fun k h5 h6 => ?_⟩
        rcases Nat.eq_or_lt_of_le h5 with rfl | hlt
        · exact hne
        · exact h4 k hlt h6

/-- The slot `fs_new_file_descriptor` takes. -/
def freeSlot (f : FileState δ) : Option Nat :=
  fsFreeSlotLoop f.fileDescriptors kernelMaxFileDescriptors 0

theorem freeSlot_some {i : Nat} (h : freeSlot f = some i) :
    i < 1024 ∧ f.fileDescriptors i = none ∧ ∀ k < i, f.fileDescriptors k ≠ none := by
  have hspec := @fsFreeSlotLoop_spec δ f.fileDescriptors 1024 0
  rw [show fsFreeSlotLoop f.fileDescriptors 1024 0 = some i from h] at hspec
  exact ⟨by omega, hspec.2.2.1, fun k hk => hspec.2.2.2 k (Nat.zero_le k) hk⟩

/-- The new descriptor takes the first free slot. -/
theorem fsNewFileDescriptor_ok {fs : FileSystemRef} {disk : DiskRef} {data : δ}
    {r : Option (FileDescriptor δ)} (h : fsNewFileDescriptor fs disk data f = .ok r f') :
    (r = none ∧ f' = f) ∨ ∃ i address s, freeSlot f = some i ∧
      Sys.zalloc 16 f.sys = .ok address s ∧ r = some ⟨address, i + 1, fs, disk, data⟩ ∧
      f' = ⟨s, f.fileSystems, Function.update f.fileDescriptors i
        (some ⟨address, i + 1, fs, disk, data⟩)⟩ := by
  unfold fsNewFileDescriptor at h
  rw [Prog.get_bind] at h
  cases hslot : fsFreeSlotLoop f.fileDescriptors kernelMaxFileDescriptors 0 with
  | none =>
    rw [hslot] at h
    obtain ⟨rfl, rfl⟩ := (Prog.pure_ok_iff _ _ _ _).mp h
    exact Or.inl ⟨rfl, rfl⟩
  | some i =>
    rw [hslot] at h
    obtain ⟨address, f1, halloc, h⟩ := (Prog.bind_ok_iff _ _ _ _ _).mp h
    obtain ⟨s, hs, rfl⟩ := onSys_ok_iff.mp halloc
    obtain ⟨_, f2, hset, h⟩ := (Prog.bind_ok_iff _ _ _ _ _).mp h
    obtain rfl := setFileDescriptor_ok_iff.mp hset
    obtain ⟨rfl, rfl⟩ := (Prog.pure_ok_iff _ _ _ _).mp h
    exact Or.inr ⟨i, address, s, hslot, hs, rfl, rfl⟩

/-! ## 2. Opening -/

variable {impl : FileSystemRef → FileSystem δ} {filename : Nat} {mode : FileMode}

/-- How `fs_open` gets as far as its file system: the path has been parsed into `root`, and the
file system `fs` of `disk` has answered `r`. -/
structure Asked (impl : FileSystemRef → FileSystem δ) (f : FileState δ) (filename : Nat)
    (mode : FileMode) (root : Nat) (a : Arena) (disk : DiskRef) (fs : FileSystemRef)
    (r : Except Int δ) (s : Sys) : Prop where
  parsed : pathParserParsePath filename f.sys.arena = .ok root a
  root_ne : root ≠ 0
  disk_eq : diskGet (a.mem root).toNat = some disk
  fs_eq : (f.sys.disks disk).fs = some fs
  answered : (impl fs).openFile disk (u32 a.mem (root + 4)) mode { f.sys with arena := a } = .ok r s

/-- The parsed path names something on a disk that has a file system. -/
def Reaches (f : FileState δ) (a : Arena) (root : Nat) : Prop :=
  u32 a.mem (root + 4) ≠ 0 ∧ u32 a.mem (u32 a.mem (root + 4)) ≠ 0 ∧ root ≠ 0 ∧
    ∃ disk, diskGet (a.mem root).toNat = some disk ∧ (f.sys.disks disk).fs ≠ none

/-- **`fs_open`, taken apart**: it returns NULL because the path does not reach a file system, or
because of the answer of that, or it puts the descriptor `desc` in the first free slot. -/
theorem fsOpen_cases {fd : Nat} (h : fsOpen impl filename mode f = .ok fd f') :
    ∃ root a, pathParserParsePath filename f.sys.arena = .ok root a ∧
      ((¬ Reaches f a root ∧ fd = 0 ∧ f' = { f with sys := { f.sys with arena := a } }) ∨
        (Reaches f a root ∧ ∃ disk fs r s, Asked impl f filename mode root a disk fs r s ∧
          ((fd = 0 ∧ f' = { f with sys := s }) ∨
            ∃ data i address s', r = .ok data ∧ freeSlot f = some i ∧ fd = i + 1 ∧
              Sys.zalloc 16 s = .ok address s' ∧
              f' = ⟨s', f.fileSystems, Function.update f.fileDescriptors i
                (some ⟨address, i + 1, fs, disk, data⟩)⟩))) := by
  unfold fsOpen at h
  obtain ⟨root, f1, hparse, h⟩ := (Prog.bind_ok_iff _ _ _ _ _).mp h
  obtain ⟨s1, hs1, rfl⟩ := onSys_ok_iff.mp hparse
  obtain ⟨a, ha, rfl⟩ := onArena_ok_iff.mp hs1
  refine ⟨root, a, ha, ?_⟩
  rw [Prog.get_bind] at h
  dsimp only at h
  have hnull : ∀ {f1}, (pure 0 : FileM δ Nat) f1 = .ok fd f' → fd = 0 ∧ f' = f1 := by
    intro f1 h
    obtain ⟨rfl, rfl⟩ := (Prog.pure_ok_iff _ _ _ _).mp h
    exact ⟨rfl, rfl⟩
  by_cases hroot : root = 0
  · rw [if_pos hroot] at h
    exact Or.inl ⟨fun hr => hr.2.2.1 hroot, hnull h⟩
  rw [if_neg hroot] at h
  split at h
  · next hpart => exact Or.inl ⟨fun hr => hr.1 hpart, hnull h⟩
  next hpart =>
  split at h
  · next hname => exact Or.inl ⟨fun hr => hr.2.1 hname, hnull h⟩
  next hname =>
  cases hdisk : diskGet (a.mem root).toNat with
  | none =>
    rw [hdisk] at h
    refine Or.inl ⟨fun hr => ?_, hnull h⟩
    obtain ⟨-, -, -, disk, hd, -⟩ := hr
    rw [hdisk] at hd
    cases hd
  | some disk =>
    rw [hdisk] at h
    dsimp only at h
    cases hfs : (f.sys.disks disk).fs with
    | none =>
      rw [hfs] at h
      refine Or.inl ⟨fun hr => ?_, hnull h⟩
      obtain ⟨-, -, -, disk', hd, hne⟩ := hr
      rw [hdisk] at hd
      exact hne (Option.some_inj.mp hd ▸ hfs)
    | some fs =>
      rw [hfs] at h
      unfold fsOpenOn at h
      obtain ⟨r, f2, hopen, h⟩ := (Prog.bind_ok_iff _ _ _ _ _).mp h
      obtain ⟨s, hs, rfl⟩ := onSys_ok_iff.mp hopen
      have hreach : Reaches f a root :=
        ⟨hpart, hname, hroot, disk, hdisk, by rw [hfs]; exact Option.some_ne_none fs⟩
      refine Or.inr ⟨hreach, disk, fs, r, s, ⟨ha, hroot, hdisk, hfs, hs⟩, ?_⟩
      cases r with
      | error e => exact Or.inl (hnull h)
      | ok data =>
        dsimp only at h
        split at h
        · exact Or.inl (hnull h)
        · obtain ⟨fd', f3, hnew, h⟩ := (Prog.bind_ok_iff _ _ _ _ _).mp h
          rcases fsNewFileDescriptor_ok hnew with ⟨rfl, rfl⟩ | ⟨i, address, s', hi, hs', rfl, rfl⟩
          · exact Or.inl (hnull h)
          · obtain ⟨rfl, rfl⟩ := (Prog.pure_ok_iff _ _ _ _).mp h
            exact Or.inr ⟨data, i, address, s', rfl, hi, rfl, hs', rfl⟩

/-- What a call of `fs_open` that returns has done, without the reasons for which it may answer NULL. -/
theorem fsOpen_ok {fd : Nat} (h : fsOpen impl filename mode f = .ok fd f') :
    ∃ root a, pathParserParsePath filename f.sys.arena = .ok root a ∧
      ((fd = 0 ∧ f' = { f with sys := { f.sys with arena := a } }) ∨
        ∃ disk fs r s, Asked impl f filename mode root a disk fs r s ∧
          ((fd = 0 ∧ f' = { f with sys := s }) ∨
            ∃ data i address s', r = .ok data ∧ freeSlot f = some i ∧ fd = i + 1 ∧
              Sys.zalloc 16 s = .ok address s' ∧
              f' = ⟨s', f.fileSystems, Function.update f.fileDescriptors i
                (some ⟨address, i + 1, fs, disk, data⟩)⟩)) := by
  obtain ⟨root, a, hparse, ⟨-, hnull⟩ | ⟨-, hrest⟩⟩ := fsOpen_cases h
  · exact ⟨root, a, hparse, Or.inl hnull⟩
  · exact ⟨root, a, hparse, Or.inr hrest⟩

/-! ## 3. Closing -/

/-- A descriptor that is looked up is found in its slot, unless it is the last one. -/
theorem fsFindFileDescriptor_eq {fd : Nat} : fsFindFileDescriptor f fd =
    if 0 < fd ∧ fd < 1024 then f.fileDescriptors (fd - 1) else none := by
  unfold fsFindFileDescriptor
  simp only [kernelMaxFileDescriptors]
  by_cases h : 0 < fd ∧ fd < 1024
  · rw [if_neg (by omega), if_pos h]
  · rw [if_pos (by omega), if_neg h]

/-- The slot of a descriptor that is found. -/
theorem fsFind_slot {fd : Nat} {desc : FileDescriptor δ} (h : fsFindFileDescriptor f fd = some desc) :
    0 < fd ∧ fd < 1024 ∧ f.fileDescriptors (fd - 1) = some desc := by
  rw [fsFindFileDescriptor_eq] at h
  split at h
  · next hfd => exact ⟨hfd.1, hfd.2, h⟩
  · cases h

/-- **`fs_close`, taken apart.** -/
theorem fsClose_ok {fd : Nat} {code : Int} (h : fsClose impl fd f = .ok code f') :
    (fsFindFileDescriptor f fd = none ∧ code = fsInvalidFileDescriptor ∧ f' = f) ∨
      ∃ desc fs res s, fsFindFileDescriptor f fd = some desc ∧
        (f.sys.disks desc.disk).fs = some fs ∧ (impl fs).close desc.privateData f.sys = .ok res s ∧
        ((res ≠ ok ∧ code = systemFail ∧ f' = { f with sys := s }) ∨
          (res = ok ∧ code = ok ∧ ∃ s', Sys.free desc.address s = .ok () s' ∧
            f' = ⟨s', f.fileSystems, Function.update f.fileDescriptors (fd - 1) none⟩)) := by
  unfold fsClose at h
  rw [Prog.get_bind] at h
  cases hfind : fsFindFileDescriptor f fd with
  | none =>
    rw [hfind] at h
    obtain ⟨rfl, rfl⟩ := (Prog.pure_ok_iff _ _ _ _).mp h
    exact Or.inl ⟨rfl, rfl, rfl⟩
  | some desc =>
    rw [hfind] at h
    obtain ⟨fs, f1, hfs, h⟩ := (Prog.bind_ok_iff _ _ _ _ _).mp h
    obtain ⟨s, hs, rfl⟩ := onSys_ok_iff.mp hfs
    obtain ⟨hfs', rfl⟩ := orFault_ok_iff.mp hs
    obtain ⟨res, f2, hclose, h⟩ := (Prog.bind_ok_iff _ _ _ _ _).mp h
    obtain ⟨s2, hs2, rfl⟩ := onSys_ok_iff.mp hclose
    refine Or.inr ⟨desc, fs, res, s2, rfl, hfs', hs2, ?_⟩
    by_cases hres : res = ok
    · rw [if_neg (not_not.mpr hres)] at h
      obtain ⟨res', f3, hfree, h⟩ := (Prog.bind_ok_iff _ _ _ _ _).mp h
      obtain ⟨rfl, rfl⟩ := (Prog.pure_ok_iff _ _ _ _).mp h
      refine Or.inr ⟨hres, rfl, ?_⟩
      obtain ⟨hfd, -, hslot⟩ := fsFind_slot hfind
      unfold fsFreeFileDescriptor at hfree
      rw [if_neg (by omega), Prog.get_bind] at hfree
      dsimp only at hfree
      rw [hslot] at hfree
      obtain ⟨_, f4, hfree', hfree⟩ := (Prog.bind_ok_iff _ _ _ _ _).mp hfree
      obtain ⟨s', hs', rfl⟩ := onSys_ok_iff.mp hfree'
      obtain ⟨_, f5, hset, hfree⟩ := (Prog.bind_ok_iff _ _ _ _ _).mp hfree
      obtain rfl := setFileDescriptor_ok_iff.mp hset
      obtain ⟨-, rfl⟩ := (Prog.pure_ok_iff _ _ _ _).mp hfree
      exact ⟨s', hs', rfl⟩
    · rw [if_pos hres] at h
      obtain ⟨rfl, rfl⟩ := (Prog.pure_ok_iff _ _ _ _).mp h
      exact Or.inl ⟨hres, rfl, rfl⟩

/-! ## 4. The other calls -/

/-- **`fs_read`, taken apart**: the file system has been asked, and its result dropped. -/
theorem fsRead_ok {ptr fd size nmemb : Nat} {code : Int}
    (h : fsRead impl ptr fd size nmemb f = .ok code f') :
    ((size = 0 ∨ nmemb = 0 ∨ fd ≤ 0) ∧ code = invalidArgument ∧ f' = f) ∨
      ¬ (size = 0 ∨ nmemb = 0 ∨ fd ≤ 0) ∧
        ((fsFindFileDescriptor f fd = none ∧ code = fsInvalidFileDescriptor ∧ f' = f) ∨
          ∃ desc res data s, fsFindFileDescriptor f fd = some desc ∧
            (impl desc.fs).read desc.disk ptr desc.privateData size nmemb f.sys =
              .ok (res, data) s ∧ code = ok ∧
            f' = ⟨s, f.fileSystems, Function.update f.fileDescriptors (fd - 1)
              (some { desc with privateData := data })⟩) := by
  unfold fsRead at h
  split at h
  · next hbad =>
    obtain ⟨rfl, rfl⟩ := (Prog.pure_ok_iff _ _ _ _).mp h
    exact Or.inl ⟨hbad, rfl, rfl⟩
  · next hgood =>
    refine Or.inr ⟨hgood, ?_⟩
    rw [Prog.get_bind] at h
    cases hfind : fsFindFileDescriptor f fd with
    | none =>
      rw [hfind] at h
      obtain ⟨rfl, rfl⟩ := (Prog.pure_ok_iff _ _ _ _).mp h
      exact Or.inl ⟨rfl, rfl, rfl⟩
    | some desc =>
      rw [hfind] at h
      obtain ⟨⟨res, data⟩, f1, hread, h⟩ := (Prog.bind_ok_iff _ _ _ _ _).mp h
      obtain ⟨s, hs, rfl⟩ := onSys_ok_iff.mp hread
      obtain ⟨_, f2, hset, h⟩ := (Prog.bind_ok_iff _ _ _ _ _).mp h
      obtain rfl := setFileDescriptor_ok_iff.mp hset
      obtain ⟨rfl, rfl⟩ := (Prog.pure_ok_iff _ _ _ _).mp h
      exact Or.inr ⟨desc, res, data, s, rfl, hs, rfl, rfl⟩

/-- **`fs_write`, taken apart.** -/
theorem fsWrite_ok {input fd size : Nat} {code : Int}
    (h : fsWrite impl input fd size f = .ok code f') :
    ((size = 0 ∨ fd ≤ 0) ∧ code = invalidArgument ∧ f' = f) ∨
      ¬ (size = 0 ∨ fd ≤ 0) ∧
        ((fsFindFileDescriptor f fd = none ∧ code = fsInvalidFileDescriptor ∧ f' = f) ∨
          ∃ desc res data s, fsFindFileDescriptor f fd = some desc ∧
            (impl desc.fs).write desc.disk input desc.privateData size f.sys = .ok (res, data) s ∧
            code = ok ∧ f' = ⟨s, f.fileSystems, Function.update f.fileDescriptors (fd - 1)
              (some { desc with privateData := data })⟩) := by
  unfold fsWrite at h
  split at h
  · next hbad =>
    obtain ⟨rfl, rfl⟩ := (Prog.pure_ok_iff _ _ _ _).mp h
    exact Or.inl ⟨hbad, rfl, rfl⟩
  · next hgood =>
    refine Or.inr ⟨hgood, ?_⟩
    rw [Prog.get_bind] at h
    cases hfind : fsFindFileDescriptor f fd with
    | none =>
      rw [hfind] at h
      obtain ⟨rfl, rfl⟩ := (Prog.pure_ok_iff _ _ _ _).mp h
      exact Or.inl ⟨rfl, rfl, rfl⟩
    | some desc =>
      rw [hfind] at h
      obtain ⟨⟨res, data⟩, f1, hwrite, h⟩ := (Prog.bind_ok_iff _ _ _ _ _).mp h
      obtain ⟨s, hs, rfl⟩ := onSys_ok_iff.mp hwrite
      obtain ⟨_, f2, hset, h⟩ := (Prog.bind_ok_iff _ _ _ _ _).mp h
      obtain rfl := setFileDescriptor_ok_iff.mp hset
      obtain ⟨rfl, rfl⟩ := (Prog.pure_ok_iff _ _ _ _).mp h
      exact Or.inr ⟨desc, res, data, s, rfl, hs, rfl, rfl⟩

/-- A read that its file system answers. -/
theorem fsRead_run {ptr fd size nmemb : Nat} {desc : FileDescriptor δ} {res : Int} {data : δ} {s : Sys}
    (h0 : size ≠ 0) (h1 : nmemb ≠ 0) (hfind : fsFindFileDescriptor f fd = some desc)
    (h : (impl desc.fs).read desc.disk ptr desc.privateData size nmemb f.sys = .ok (res, data) s) :
    fsRead impl ptr fd size nmemb f = .ok ok ⟨s, f.fileSystems,
      Function.update f.fileDescriptors (fd - 1) (some { desc with privateData := data })⟩ := by
  have hfd := (fsFind_slot hfind).1
  have hsys : (onSys ((impl desc.fs).read desc.disk ptr desc.privateData size nmemb) :
      FileM δ (Int × δ)) f = .ok (res, data) { f with sys := s } := onSys_ok_iff.mpr ⟨s, h, rfl⟩
  unfold fsRead
  rw [if_neg (by omega), Prog.get_bind, hfind]
  dsimp only
  rw [Prog.bind_of_ok hsys]
  rfl

/-- A write that its file system answers. -/
theorem fsWrite_run {input fd size : Nat} {desc : FileDescriptor δ} {res : Int} {data : δ} {s : Sys}
    (h0 : size ≠ 0) (hfind : fsFindFileDescriptor f fd = some desc)
    (h : (impl desc.fs).write desc.disk input desc.privateData size f.sys = .ok (res, data) s) :
    fsWrite impl input fd size f = .ok ok ⟨s, f.fileSystems,
      Function.update f.fileDescriptors (fd - 1) (some { desc with privateData := data })⟩ := by
  have hfd := (fsFind_slot hfind).1
  have hsys : (onSys ((impl desc.fs).write desc.disk input desc.privateData size) : FileM δ (Int × δ))
      f = .ok (res, data) { f with sys := s } := onSys_ok_iff.mpr ⟨s, h, rfl⟩
  unfold fsWrite
  rw [if_neg (by omega), Prog.get_bind, hfind]
  dsimp only
  rw [Prog.bind_of_ok hsys]
  rfl

/-- **`fs_seek`, taken apart**: the file system is that of the disk. -/
theorem fsSeek_ok {fd offset : Nat} {smode : SeekMode} {code : Int}
    (h : fsSeek impl fd offset smode f = .ok code f') :
    (fsFindFileDescriptor f fd = none ∧ code = fsInvalidFileDescriptor ∧ f' = f) ∨
      ∃ desc fs data s, fsFindFileDescriptor f fd = some desc ∧
        (f.sys.disks desc.disk).fs = some fs ∧
        (impl fs).seek desc.privateData offset smode f.sys = .ok (code, data) s ∧
        f' = ⟨s, f.fileSystems, Function.update f.fileDescriptors (fd - 1)
          (some { desc with privateData := data })⟩ := by
  unfold fsSeek at h
  rw [Prog.get_bind] at h
  cases hfind : fsFindFileDescriptor f fd with
  | none =>
    rw [hfind] at h
    obtain ⟨rfl, rfl⟩ := (Prog.pure_ok_iff _ _ _ _).mp h
    exact Or.inl ⟨rfl, rfl, rfl⟩
  | some desc =>
    rw [hfind] at h
    obtain ⟨fs, f1, hfs, h⟩ := (Prog.bind_ok_iff _ _ _ _ _).mp h
    obtain ⟨s, hs, rfl⟩ := onSys_ok_iff.mp hfs
    obtain ⟨hfs', rfl⟩ := orFault_ok_iff.mp hs
    obtain ⟨⟨res, data⟩, f2, hseek, h⟩ := (Prog.bind_ok_iff _ _ _ _ _).mp h
    obtain ⟨s2, hs2, rfl⟩ := onSys_ok_iff.mp hseek
    obtain ⟨_, f3, hset, h⟩ := (Prog.bind_ok_iff _ _ _ _ _).mp h
    obtain rfl := setFileDescriptor_ok_iff.mp hset
    obtain ⟨rfl, rfl⟩ := (Prog.pure_ok_iff _ _ _ _).mp h
    exact Or.inr ⟨desc, fs, data, s2, rfl, hfs', hs2, rfl⟩

/-- **`fs_stat`, taken apart.** -/
theorem fsStat_ok {fd : Nat} {r : Int × Option FileStat} (h : fsStat impl fd f = .ok r f') :
    (fsFindFileDescriptor f fd = none ∧ r = (fsInvalidFileDescriptor, none) ∧ f' = f) ∨
      ∃ desc fs s, fsFindFileDescriptor f fd = some desc ∧
        (f.sys.disks desc.disk).fs = some fs ∧
        (impl fs).stat desc.disk desc.privateData f.sys = .ok r s ∧ f' = { f with sys := s } := by
  unfold fsStat at h
  rw [Prog.get_bind] at h
  cases hfind : fsFindFileDescriptor f fd with
  | none =>
    rw [hfind] at h
    obtain ⟨rfl, rfl⟩ := (Prog.pure_ok_iff _ _ _ _).mp h
    exact Or.inl ⟨rfl, rfl, rfl⟩
  | some desc =>
    rw [hfind] at h
    obtain ⟨fs, f1, hfs, h⟩ := (Prog.bind_ok_iff _ _ _ _ _).mp h
    obtain ⟨s, hs, rfl⟩ := onSys_ok_iff.mp hfs
    obtain ⟨hfs', rfl⟩ := orFault_ok_iff.mp hs
    obtain ⟨s2, hs2, rfl⟩ := onSys_ok_iff.mp h
    exact Or.inr ⟨desc, fs, s2, rfl, hfs', hs2, rfl⟩

end

end KokoOs
