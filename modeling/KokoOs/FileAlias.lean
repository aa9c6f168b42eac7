/-
# Descriptors of any file system

Runs of all the calls on files, over a file system of which nothing is known but that it frees only
blocks that it has allocated itself.  A ghost set keeps track of these blocks (`Honest`); the table
of descriptors is the kernel's.

* **The invariant.**  Every slot that is taken has an object of its own, with the number of the slot
  (`SlotsOwned`).  While the file system runs it can neither free these objects nor come to own them
  (`SlotsOwned.asked`); the kernel itself takes a new object for a slot that was free, and releases that
  of a slot that is emptied.
* **Stale descriptors.**  Only `fs_open` fills an empty slot (`runCall_fills`), and a call on an empty slot
  is refused and changes nothing (`runCall_refused`).  So a descriptor that has been closed is refused
  until it is given out again (`slot_stays_empty`).
* **The result.**  Descriptors are never aliased, and never stale (`descriptors_never_alias`).

That a file system is honest is an assumption here.  Opening a file of the FAT16 driver is shown to meet
it (`openFile_honest`), and the theorem is applied to a run of that driver in which a path is opened
twice and one of the two descriptors is closed.
-/
import KokoOs.FileAtomic
import KokoOs.Lib.Run

namespace KokoOs

open Bytes Prog
open Runs (Run)

/-! ## 1. Calls -/

/-- A call on files. -/
inductive FileCall where
  | openFile (filename : Nat) (mode : FileMode)
  | read (ptr fd size nmemb : Nat)
  | write (input fd size : Nat)
  | seek (fd offset : Nat) (mode : SeekMode)
  | stat (fd : Nat)
  | close (fd : Nat)

/-- The descriptor a call is on. -/
def FileCall.on : FileCall → Option Nat
  | .openFile _ _ => none
  | .read _ fd _ _ => some fd
  | .write _ fd _ => some fd
  | .seek fd _ _ => some fd
  | .stat fd => some fd
  | .close fd => some fd

section

variable {δ : Type} (impl : FileSystemRef → FileSystem δ)

/-- A call, with its result and what it stores in `*stat`. -/
def runCall : FileCall → FileM δ (Int × Option FileStat)
  | .openFile filename mode => do
    let fd ← fsOpen impl filename mode
    return (fd, none)
  | .read ptr fd size nmemb => do
    let code ← fsRead impl ptr fd size nmemb
    return (code, none)
  | .write input fd size => do
    let code ← fsWrite impl input fd size
    return (code, none)
  | .seek fd offset mode => do
    let code ← fsSeek impl fd offset mode
    return (code, none)
  | .stat fd => fsStat impl fd
  | .close fd => do
    let code ← fsClose impl fd
    return (code, none)

/-- The operation of the file system that a call runs, from `s` to `s'`. -/
inductive Requests (f : FileState δ) : FileCall → Sys → Sys → Prop
  | openFile {filename root : Nat} {mode : FileMode} {a : Arena} {disk : DiskRef}
      {fs : FileSystemRef} {r : Except Int δ} {s : Sys} :
      Reaches f a root → Asked impl f filename mode root a disk fs r s →
      Requests f (.openFile filename mode) { f.sys with arena := a } s
  | read {ptr fd size nmemb : Nat} {desc : FileDescriptor δ} {res : Int × δ} {s : Sys} :
      ¬ (size = 0 ∨ nmemb = 0 ∨ fd ≤ 0) → fsFindFileDescriptor f fd = some desc →
      (impl desc.fs).read desc.disk ptr desc.privateData size nmemb f.sys = .ok res s →
      Requests f (.read ptr fd size nmemb) f.sys s
  | write {input fd size : Nat} {desc : FileDescriptor δ} {res : Int × δ} {s : Sys} :
      ¬ (size = 0 ∨ fd ≤ 0) → fsFindFileDescriptor f fd = some desc →
      (impl desc.fs).write desc.disk input desc.privateData size f.sys = .ok res s →
      Requests f (.write input fd size) f.sys s
  | seek {fd offset : Nat} {mode : SeekMode} {desc : FileDescriptor δ} {fs : FileSystemRef}
      {res : Int × δ} {s : Sys} :
      fsFindFileDescriptor f fd = some desc → (f.sys.disks desc.disk).fs = some fs →
      (impl fs).seek desc.privateData offset mode f.sys = .ok res s →
      Requests f (.seek fd offset mode) f.sys s
  | stat {fd : Nat} {desc : FileDescriptor δ} {fs : FileSystemRef} {r : Int × Option FileStat}
      {s : Sys} :
      fsFindFileDescriptor f fd = some desc → (f.sys.disks desc.disk).fs = some fs →
      (impl fs).stat desc.disk desc.privateData f.sys = .ok r s →
      Requests f (.stat fd) f.sys s
  | close {fd : Nat} {desc : FileDescriptor δ} {fs : FileSystemRef} {res : Int} {s : Sys} :
      fsFindFileDescriptor f fd = some desc → (f.sys.disks desc.disk).fs = some fs →
      (impl fs).close desc.privateData f.sys = .ok res s →
      Requests f (.close fd) f.sys s

/-- An operation of a file system that owns the objects in `own` frees no other ones; afterwards it
owns of these, and of the objects it has made, those in `own'`. -/
structure Honest (own : Set Nat) (s : Sys) (own' : Set Nat) (s' : Sys) : Prop where
  kernel : KernelHeap s'.arena
  frees : ∀ b, b ∉ own → Held s.arena b → Held s'.arena b
  owns : ∀ b ∈ own', Held s'.arena b ∧ (b ∈ own ∨ ¬ Held s.arena b)

/-- A call that returns, over an honest file system: the state has the objects that the file system
owns, the label what the call answers. -/
structure CallStep (r : FileState δ × Set Nat) (l : FileCall × (Int × Option FileStat))
    (r' : FileState δ × Set Nat) : Prop where
  returns : runCall impl l.1 r.1 = .ok l.2 r'.1
  path : ∀ filename mode, l.1 = .openFile filename mode →
    ∃ bytes, PathString r.1.sys.arena filename bytes
  honest : ∀ s s', Requests impl r.1 l.1 s s' → Honest r.2 s r'.2 s'
  still : (∀ s s', ¬ Requests impl r.1 l.1 s s') → r'.2 = r.2

end

/-! ## 2. The invariant -/

/-- Every slot has an object of its own, which the file system does not own. -/
structure SlotsOwned {δ : Type} (own : Set Nat) (f : FileState δ) : Prop where
  kernel : KernelHeap f.sys.arena
  index : ∀ i desc, f.fileDescriptors i = some desc → desc.index = i + 1
  slot : ∀ i desc, f.fileDescriptors i = some desc →
    ∃ e, desc.address = blockAt e ∧ Held f.sys.arena e ∧ e ∉ own
  apart : ∀ i j desc desc', f.fileDescriptors i = some desc → f.fileDescriptors j = some desc' →
    desc.address = desc'.address → i = j
  owned : ∀ b ∈ own, Held f.sys.arena b

section

variable {δ : Type} {impl : FileSystemRef → FileSystem δ} {f : FileState δ} {own own' : Set Nat}

/-- **The file system runs.**  It can neither free the objects of slots nor come to own them. -/
theorem SlotsOwned.asked {s s' : Sys} (h : SlotsOwned own { f with sys := s })
    (hh : Honest own s own' s') : SlotsOwned own' { f with sys := s' } where
  kernel := hh.kernel
  index := h.index
  slot i desc hi := by
    obtain ⟨e, he, hheld, hout⟩ := h.slot i desc hi
    refine ⟨e, he, hh.frees e hout hheld, fun hin => ?_⟩
    rcases (hh.owns e hin).2 with hold | hnew
    · exact hout hold
    · exact hnew hheld
  apart := h.apart
  owned b hb := (hh.owns b hb).1

/-- The kernel makes objects. -/
theorem SlotsOwned.touches {s s' : Sys} {W : Set Nat} (h : SlotsOwned own { f with sys := s })
    (ht : Touches ∅ W s.arena s'.arena) : SlotsOwned own { f with sys := s' } where
  kernel := ht.kernel
  index := h.index
  slot i desc hi := by
    obtain ⟨e, he, hheld, hout⟩ := h.slot i desc hi
    exact ⟨e, he, ht.held e (Set.notMem_empty e) hheld, hout⟩
  apart := h.apart
  owned b hb := ht.held b (Set.notMem_empty b) (h.owned b hb)

/-- A slot is given other private data. -/
theorem SlotsOwned.setData {i : Nat} {desc : FileDescriptor δ} (h : SlotsOwned own f)
    (hi : f.fileDescriptors i = some desc) (data : δ) : SlotsOwned own { f with
      fileDescriptors := Function.update f.fileDescriptors i
        (some { desc with privateData := data }) } := by
  -- every slot has a descriptor with the address and the number that it had before
  have hold : ∀ j desc', Function.update f.fileDescriptors i
      (some { desc with privateData := data }) j = some desc' →
      ∃ d, f.fileDescriptors j = some d ∧ desc'.address = d.address ∧ desc'.index = d.index := by
    intro j desc' hj
    by_cases hne : j = i
    · subst hne
      rw [Function.update_self] at hj
      cases hj
      exact ⟨desc, hi, rfl, rfl⟩
    · rw [Function.update_of_ne hne] at hj
      exact ⟨desc', hj, rfl, rfl⟩
  refine ⟨h.kernel, fun j desc' hj => ?_, fun j desc' hj => ?_, fun j k d1 d2 hj hk heq => ?_,
    h.owned⟩
  · obtain ⟨d, hd, -, hindex⟩ := hold j desc' hj
    exact hindex.trans (h.index j d hd)
  · obtain ⟨d, hd, haddr, -⟩ := hold j desc' hj
    rw [haddr]
    exact h.slot j d hd
  · obtain ⟨e1, he1, ha1, -⟩ := hold j d1 hj
    obtain ⟨e2, he2, ha2, -⟩ := hold k d2 hk
    exact h.apart j k e1 e2 he1 he2 (ha1.symm.trans (heq.trans ha2))

/-- **A slot that is free takes a new object.** -/
theorem SlotsOwned.insert {s s' : Sys} {i b : Nat} {desc : FileDescriptor δ}
    (h : SlotsOwned own { f with sys := s }) (hnew : New s.arena s'.arena b)
    (haddr : desc.address = blockAt b) (hindex : desc.index = i + 1) : SlotsOwned own
      ⟨s', f.fileSystems, Function.update f.fileDescriptors i (some desc)⟩ := by
  have ht : SlotsOwned own { f with sys := s' } := h.touches hnew.touches
  have hother : ∀ j d, f.fileDescriptors j = some d → d.address ≠ blockAt b := by
    intro j d hj heq
    obtain ⟨e, he, hheld, -⟩ := h.slot j d hj
    exact hnew.fresh (blockAt_inj (he.symm.trans heq) ▸ hheld)
  refine ⟨ht.kernel, fun j d hj => ?_, fun j d hj => ?_, fun j k d1 d2 hj hk heq => ?_, ht.owned⟩
  · dsimp only at hj
    by_cases hne : j = i
    · rw [hne, Function.update_self] at hj
      cases hj
      rw [hne, hindex]
    · rw [Function.update_of_ne hne] at hj
      exact h.index j d hj
  · dsimp only at hj
    by_cases hne : j = i
    · rw [hne, Function.update_self] at hj
      cases hj
      exact ⟨b, haddr, hnew.held, fun hin => hnew.fresh (h.owned b hin)⟩
    · rw [Function.update_of_ne hne] at hj
      exact ht.slot j d hj
  · dsimp only at hj hk
    by_cases hji : j = i
    · by_cases hki : k = i
      · rw [hji, hki]
      · rw [hji, Function.update_self] at hj
        rw [Function.update_of_ne hki] at hk
        cases hj
        exact absurd (heq.symm.trans haddr) (hother k d2 hk)
    · rw [Function.update_of_ne hji] at hj
      by_cases hki : k = i
      · rw [hki, Function.update_self] at hk
        cases hk
        exact absurd (heq.trans haddr) (hother j d1 hj)
      · rw [Function.update_of_ne hki] at hk
        exact h.apart j k d1 d2 hj hk heq

/-- **A slot is emptied, and its object released.** -/
theorem SlotsOwned.release {s s' : Sys} {i : Nat} {desc : FileDescriptor δ}
    (h : SlotsOwned own { f with sys := s }) (hi : f.fileDescriptors i = some desc)
    (hfree : Sys.free desc.address s = .ok () s') : SlotsOwned own
      ⟨s', f.fileSystems, Function.update f.fileDescriptors i none⟩ := by
  obtain ⟨e, he, hheld, hout⟩ := h.slot i desc hi
  rw [he] at hfree
  obtain ⟨hr, -⟩ := Runs.value (Sys.free_runs h.kernel hheld) hfree
  have hold : ∀ j d, Function.update f.fileDescriptors i none j = some d →
      j ≠ i ∧ f.fileDescriptors j = some d := by
    intro j d hj
    by_cases hne : j = i
    · rw [hne, Function.update_self] at hj
      cases hj
    · rw [Function.update_of_ne hne] at hj
      exact ⟨hne, hj⟩
  refine ⟨hr.kernel, fun j d hj => h.index j d (hold j d hj).2, fun j d hj => ?_,
    fun j k d1 d2 hj hk heq => h.apart j k d1 d2 (hold j d1 hj).2 (hold k d2 hk).2 heq,
    fun b hb => hr.touches.held b ?_ (h.owned b hb)⟩
  · obtain ⟨hne, hj⟩ := hold j d hj
    obtain ⟨c, hc, hheldc, houtc⟩ := h.slot j d hj
    refine ⟨c, hc, hr.touches.held c (fun hin => hne ?_) hheldc, houtc⟩
    obtain rfl := Set.mem_singleton_iff.mp hin
    exact h.apart j i d desc hj hi (hc.trans he.symm)
  · intro hin
    obtain rfl := Set.mem_singleton_iff.mp hin
    exact hout hb

/-! ## 3. Runs -/

/-- On a descriptor that is not found nothing is asked of the file system. -/
theorem not_requests_of_none {call : FileCall} {fd : Nat} (hon : call.on = some fd)
    (hnone : fsFindFileDescriptor f fd = none) : ∀ s s', ¬ Requests impl f call s s' := by
  intro s s' hreq
  cases hreq with
  | openFile _ _ => cases hon
  | read _ hfind _ | write _ hfind _ | seek hfind _ _ | stat hfind _ _ | close hfind _ _ =>
    cases hon
    rw [hnone] at hfind
    cases hfind

/-- **Every call keeps the invariant.** -/
theorem SlotsOwned.step {r r' : FileState δ × Set Nat} {l : FileCall × (Int × Option FileStat)}
    (h : SlotsOwned r.2 r.1) (hstep : CallStep impl r l r') : SlotsOwned r'.2 r'.1 := by
  obtain ⟨f, own⟩ := r
  obtain ⟨f', own'⟩ := r'
  obtain ⟨call, ans⟩ := l
  obtain ⟨hrun, hpath, hhonest, hstill⟩ := hstep
  dsimp only at h hrun hpath hhonest hstill ⊢
  cases call with
  | openFile filename mode =>
    obtain ⟨bytes, hstr⟩ := hpath filename mode rfl
    obtain ⟨fd, f1, hopen, hrun⟩ := (bind_ok_iff _ _ _ _ _).mp hrun
    obtain ⟨-, rfl⟩ := (pure_ok_iff _ _ _ _).mp hrun
    obtain ⟨root, a, hparse, ⟨hno, -, rfl⟩ | ⟨hreach, disk, fs, res, s, hasked, hcase⟩⟩ :=
      fsOpen_cases hopen
    · have hown : own' = own := hstill fun s s' hreq => by
        cases hreq with
        | openFile hreach' hasked' =>
          obtain ⟨rfl, rfl⟩ := EStateM.Result.ok.inj (hparse.symm.trans hasked'.parsed)
          exact hno hreach'
      exact hown ▸ h.touches (hstr.parse h.kernel hparse).1
    · have h1 : SlotsOwned own { f with sys := { f.sys with arena := a } } :=
        h.touches (hstr.parse h.kernel hparse).1
      have h2 := h1.asked (hhonest _ _ (.openFile hreach hasked))
      rcases hcase with ⟨-, rfl⟩ | ⟨data, i, address, s', -, -, -, halloc, rfl⟩
      · exact h2
      · obtain ⟨b, rfl, hnew, -⟩ := Runs.value (Sys.zalloc_runs (by exact h2.kernel) (by omega)
          (by omega) fun _ _ => trivial) halloc
        exact h2.insert hnew rfl rfl
  | read ptr fd size nmemb =>
    obtain ⟨code, f1, hread, hrun⟩ := (bind_ok_iff _ _ _ _ _).mp hrun
    obtain ⟨-, rfl⟩ := (pure_ok_iff _ _ _ _).mp hrun
    rcases fsRead_ok hread with ⟨hbad, -, rfl⟩ | ⟨hgood, ⟨hnone, -, rfl⟩ |
      ⟨desc, res, data, s, hfind, hop, -, rfl⟩⟩
    · have hown : own' = own := hstill fun s s' hreq => by
        cases hreq with
        | read hgood _ _ => exact hgood hbad
      exact hown ▸ h
    · exact hstill (not_requests_of_none rfl hnone) ▸ h
    · exact (h.asked (hhonest _ _ (.read hgood hfind hop))).setData (fsFind_slot hfind).2.2 data
  | write input fd size =>
    obtain ⟨code, f1, hwrite, hrun⟩ := (bind_ok_iff _ _ _ _ _).mp hrun
    obtain ⟨-, rfl⟩ := (pure_ok_iff _ _ _ _).mp hrun
    rcases fsWrite_ok hwrite with ⟨hbad, -, rfl⟩ | ⟨hgood, ⟨hnone, -, rfl⟩ |
      ⟨desc, res, data, s, hfind, hop, -, rfl⟩⟩
    · have hown : own' = own := hstill fun s s' hreq => by
        cases hreq with
        | write hgood _ _ => exact hgood hbad
      exact hown ▸ h
    · exact hstill (not_requests_of_none rfl hnone) ▸ h
    · exact (h.asked (hhonest _ _ (.write hgood hfind hop))).setData (fsFind_slot hfind).2.2 data
  | seek fd offset mode =>
    obtain ⟨code, f1, hseek, hrun⟩ := (bind_ok_iff _ _ _ _ _).mp hrun
    obtain ⟨-, rfl⟩ := (pure_ok_iff _ _ _ _).mp hrun
    rcases fsSeek_ok hseek with ⟨hnone, -, rfl⟩ | ⟨desc, fs, data, s, hfind, hfs, hop, rfl⟩
    · exact hstill (not_requests_of_none rfl hnone) ▸ h
    · exact (h.asked (hhonest _ _ (.seek hfind hfs hop))).setData (fsFind_slot hfind).2.2 data
  | stat fd =>
    rcases fsStat_ok hrun with ⟨hnone, -, rfl⟩ | ⟨desc, fs, s, hfind, hfs, hop, rfl⟩
    · exact hstill (not_requests_of_none rfl hnone) ▸ h
    · exact h.asked (hhonest _ _ (.stat hfind hfs hop))
  | close fd =>
    obtain ⟨code, f1, hclose, hrun⟩ := (bind_ok_iff _ _ _ _ _).mp hrun
    obtain ⟨-, rfl⟩ := (pure_ok_iff _ _ _ _).mp hrun
    rcases fsClose_ok hclose with ⟨hnone, -, rfl⟩ | ⟨desc, fs, res, s, hfind, hfs, hop, hcase⟩
    · exact hstill (not_requests_of_none rfl hnone) ▸ h
    · have h1 := h.asked (hhonest _ _ (.close hfind hfs hop))
      rcases hcase with ⟨-, -, rfl⟩ | ⟨-, -, s', hfree, rfl⟩
      · exact h1
      · exact h1.release (fsFind_slot hfind).2.2 hfree

/-- What `fs_open` answers is a slot that was free. -/
theorem fsOpen_slot {filename fd : Nat} {mode : FileMode} {f' : FileState δ}
    (h : fsOpen impl filename mode f = .ok fd f') (hfd : fd ≠ 0) :
    f.fileDescriptors (fd - 1) = none := by
  obtain ⟨root, a, -, ⟨h0, -⟩ | ⟨disk, fs, r, s, -, ⟨h0, -⟩ |
    ⟨data, i, address, s', -, hslot, rfl, -, -⟩⟩⟩ := fsOpen_ok h
  · exact absurd h0 hfd
  · exact absurd h0 hfd
  · exact (freeSlot_some hslot).2.1

/-- **Only `fs_open` fills an empty slot**, and it answers with the descriptor of the slot. -/
theorem runCall_fills {call : FileCall} {ans : Int × Option FileStat} {f' : FileState δ} {i : Nat}
    (h : runCall impl call f = .ok ans f') (hi : f.fileDescriptors i = none) :
    f'.fileDescriptors i = none ∨
      ∃ filename mode, call = .openFile filename mode ∧ ans = (((i + 1 : Nat) : Int), none) := by
  have hset : ∀ {fd : Nat} {desc : FileDescriptor δ} {x : Option (FileDescriptor δ)},
      fsFindFileDescriptor f fd = some desc →
      Function.update f.fileDescriptors (fd - 1) x i = none := by
    intro fd desc x hfind
    rw [Function.update_of_ne, hi]
    rintro rfl
    rw [(fsFind_slot hfind).2.2] at hi
    cases hi
  cases call with
  | openFile filename mode =>
    obtain ⟨fd, f1, hopen, h⟩ := (bind_ok_iff _ _ _ _ _).mp h
    obtain ⟨rfl, rfl⟩ := (pure_ok_iff _ _ _ _).mp h
    obtain ⟨root, a, -, ⟨-, rfl⟩ | ⟨disk, fs, r, s, -, ⟨-, rfl⟩ |
      ⟨data, j, address, s', -, -, rfl, -, rfl⟩⟩⟩ := fsOpen_ok hopen
    · exact Or.inl hi
    · exact Or.inl hi
    · by_cases hij : i = j
      · exact Or.inr ⟨filename, mode, rfl, by rw [hij]⟩
      · exact Or.inl ((Function.update_of_ne hij _ _).trans hi)
  | read ptr fd size nmemb =>
    obtain ⟨code, f1, hread, h⟩ := (bind_ok_iff _ _ _ _ _).mp h
    obtain ⟨-, rfl⟩ := (pure_ok_iff _ _ _ _).mp h
    rcases fsRead_ok hread with ⟨-, -, rfl⟩ | ⟨-, ⟨-, -, rfl⟩ | ⟨_, _, _, _, hfind, -, -, rfl⟩⟩
    · exact Or.inl hi
    · exact Or.inl hi
    · exact Or.inl (hset hfind)
  | write input fd size =>
    obtain ⟨code, f1, hwrite, h⟩ := (bind_ok_iff _ _ _ _ _).mp h
    obtain ⟨-, rfl⟩ := (pure_ok_iff _ _ _ _).mp h
    rcases fsWrite_ok hwrite with ⟨-, -, rfl⟩ | ⟨-, ⟨-, -, rfl⟩ | ⟨_, _, _, _, hfind, -, -, rfl⟩⟩
    · exact Or.inl hi
    · exact Or.inl hi
    · exact Or.inl (hset hfind)
  | seek fd offset mode =>
    obtain ⟨code, f1, hseek, h⟩ := (bind_ok_iff _ _ _ _ _).mp h
    obtain ⟨-, rfl⟩ := (pure_ok_iff _ _ _ _).mp h
    rcases fsSeek_ok hseek with ⟨-, -, rfl⟩ | ⟨_, _, _, _, hfind, -, -, rfl⟩
    · exact Or.inl hi
    · exact Or.inl (hset hfind)
  | stat fd =>
    rcases fsStat_ok h with ⟨-, -, rfl⟩ | ⟨_, _, _, -, -, -, rfl⟩
    · exact Or.inl hi
    · exact Or.inl hi
  | close fd =>
    obtain ⟨code, f1, hclose, h⟩ := (bind_ok_iff _ _ _ _ _).mp h
    obtain ⟨-, rfl⟩ := (pure_ok_iff _ _ _ _).mp h
    rcases fsClose_ok hclose with ⟨-, -, rfl⟩ | ⟨_, _, _, _, hfind, -, -, ⟨-, -, rfl⟩ |
      ⟨-, -, _, -, rfl⟩⟩
    · exact Or.inl hi
    · exact Or.inl hi
    · exact Or.inl (hset hfind)

/-- A call whose only answer is its result. -/
theorem answer_only {m : FileM δ Int} {code : Int} {f' : FileState δ} (h : m f = .ok code f') :
    (do let code ← m; return (code, none) : FileM δ (Int × Option FileStat)) f =
      .ok (code, none) f' := by
  rw [bind_of_ok h]
  rfl

/-- **A call on an empty slot is refused**, and changes nothing. -/
theorem runCall_refused {call : FileCall} {fd : Nat} (hon : call.on = some fd)
    (hnone : fsFindFileDescriptor f fd = none) : ∃ code,
      (code = fsInvalidFileDescriptor ∨ code = invalidArgument) ∧
        runCall impl call f = .ok (code, none) f := by
  cases call with
  | openFile _ _ => cases hon
  | read ptr k size nmemb =>
    cases hon
    by_cases hbad : size = 0 ∨ nmemb = 0 ∨ fd ≤ 0
    · refine ⟨_, Or.inr rfl, answer_only ?_⟩
      unfold fsRead
      rw [if_pos hbad]
      rfl
    · refine ⟨_, Or.inl rfl, answer_only ?_⟩
      unfold fsRead
      rw [if_neg hbad, get_bind, hnone]
      rfl
  | write input k size =>
    cases hon
    by_cases hbad : size = 0 ∨ fd ≤ 0
    · refine ⟨_, Or.inr rfl, answer_only ?_⟩
      unfold fsWrite
      rw [if_pos hbad]
      rfl
    · refine ⟨_, Or.inl rfl, answer_only ?_⟩
      unfold fsWrite
      rw [if_neg hbad, get_bind, hnone]
      rfl
  | seek k offset mode =>
    cases hon
    refine ⟨_, Or.inl rfl, answer_only ?_⟩
    unfold fsSeek
    rw [get_bind, hnone]
    rfl
  | stat k =>
    cases hon
    refine ⟨_, Or.inl rfl, ?_⟩
    change fsStat impl fd f = _
    unfold fsStat
    rw [get_bind, hnone]
    rfl
  | close k =>
    cases hon
    refine ⟨_, Or.inl rfl, answer_only ?_⟩
    unfold fsClose
    rw [get_bind, hnone]
    rfl

/-- A closed slot. -/
theorem fsClose_empties {fd : Nat} {f' : FileState δ} (h : fsClose impl fd f = .ok ok f') :
    0 < fd ∧ f'.fileDescriptors (fd - 1) = none := by
  rcases fsClose_ok h with ⟨-, hcode, -⟩ | ⟨desc, fs, res, s, hfind, -, -, ⟨-, hcode, -⟩ |
    ⟨-, -, s', -, rfl⟩⟩
  · exact absurd hcode (by decide)
  · exact absurd hcode (by decide)
  · exact ⟨(fsFind_slot hfind).1, Function.update_self _ _ _⟩

/-- What a run does to a slot that is empty: nothing, until an `fs_open` answers with it. -/
theorem slot_stays_empty {r r' : FileState δ × Set Nat} {fd : Nat} (hfd : 0 < fd)
    {tr : List ((FileState δ × Set Nat) × (FileCall × (Int × Option FileStat)))}
    (hrun : Run (CallStep impl) r tr r') (hempty : r.1.fileDescriptors (fd - 1) = none)
    (hnot : ∀ p ∈ tr, ∀ filename mode, p.2 ≠ (.openFile filename mode, ((fd : Int), none))) :
    r'.1.fileDescriptors (fd - 1) = none := by
  refine hrun.invariant_on (I := fun r => r.1.fileDescriptors (fd - 1) = none)
    (C := fun _ (l : FileCall × (Int × Option FileStat)) => ∀ (filename : Nat) (mode : FileMode),
      l ≠ (.openFile filename mode, ((fd : Int), none)))
    (fun s l s' hI hC hstep => ?_) hempty hnot
  rcases runCall_fills hstep.returns hI with hnone | ⟨filename, mode, hcall, hans⟩
  · exact hnone
  · rw [Nat.sub_add_cancel hfd] at hans
    exact absurd (Prod.ext hcall hans) (hC filename mode)

/-! ## 4. No descriptor is another one -/

/-- **Descriptors are never aliased, and never stale.**  On every run over an honest file system:
every slot that is taken has a descriptor with its number, in a block that no other slot has;
`fs_open` answers with slots that are free only; and a descriptor that has been closed is refused by
every call, without effect, until an `fs_open` answers with it again. -/
theorem descriptors_never_alias {f0 : FileState δ} {own0 : Set Nat} (hk : KernelHeap f0.sys.arena)
    (hempty : ∀ i, f0.fileDescriptors i = none) (hown : ∀ b ∈ own0, Held f0.sys.arena b)
    {tr : List ((FileState δ × Set Nat) × (FileCall × (Int × Option FileStat)))}
    (hrun : Run (CallStep impl) (f0, own0) tr (f, own)) :
    (∀ i desc, f.fileDescriptors i = some desc → desc.index = i + 1 ∧
      ∃ e, desc.address = blockAt e ∧ Held f.sys.arena e ∧
        ∀ j desc', f.fileDescriptors j = some desc' → desc'.address = desc.address → j = i) ∧
    (∀ filename mode fd f', fsOpen impl filename mode f = .ok fd f' → fd ≠ 0 →
      f.fileDescriptors (fd - 1) = none) ∧
    ∀ fd f1 own1 tr' f2 own2, fsClose impl fd f = .ok ok f1 →
      Run (CallStep impl) (f1, own1) tr' (f2, own2) →
      (∀ p ∈ tr', ∀ filename mode, p.2 ≠ (.openFile filename mode, ((fd : Int), none))) →
      ∀ call, call.on = some fd → ∃ code,
        (code = fsInvalidFileDescriptor ∨ code = invalidArgument) ∧
          runCall impl call f2 = .ok (code, none) f2 := by
  have hinv : SlotsOwned own f := by
    refine hrun.invariant (I := fun r => SlotsOwned r.2 r.1) (fun _ _ _ h hl => h.step hl) ?_
    refine ⟨hk, fun i d hi => ?_, fun i d hi => ?_, fun i j d _ hi _ _ => ?_, hown⟩
    all_goals
      rw [hempty] at hi
      cases hi
  refine ⟨fun i desc hi => ?_, fun filename mode fd f' hopen hfd => fsOpen_slot hopen hfd, ?_⟩
  · obtain ⟨e, he, hheld, -⟩ := hinv.slot i desc hi
    exact ⟨hinv.index i desc hi, e, he, hheld, fun j d hj heq => hinv.apart j i d desc hj hi heq⟩
  · intro fd f1 own1 tr' f2 own2 hclose hrun' hnot call hon
    obtain ⟨hfd, hnone⟩ := fsClose_empties hclose
    have hslot := slot_stays_empty hfd hrun' hnone hnot
    refine runCall_refused hon ?_
    rw [fsFindFileDescriptor_eq]
    split
    · exact hslot
    · rfl

end

/-- Opening a file of the FAT16 driver is honest: the driver then owns what it has made. -/
theorem openFile_honest {f : FileState FatFileDescriptor} {p : FatPrivate} {own : Set Nat}
    {filename : Nat} {mode : FileMode} {bytes : List UInt8} (hk : KernelHeap f.sys.arena)
    (hm : Mounted f.sys p) (hpath : PathString f.sys.arena filename bytes) {s s' : Sys}
    (h : Requests fileSystemOf f (.openFile filename mode) s s') :
    Honest own s {b | Held s'.arena b ∧ ¬ Held s.arena b} s' := by
  cases h with
  | openFile hreach hasked =>
    have ht := (hpath.parse hk hasked.parsed).1
    have hm1 := (Reads.of_arena (s := f.sys) ht).mounted hm
    obtain rfl := diskGet_some hasked.disk_eq
    obtain rfl := Option.some_inj.mp (hasked.fs_eq.symm.trans hm.fs)
    obtain ⟨hreads, -⟩ := Runs.value (fat16Open_reads (by exact ht.kernel) hm1 _ _) hasked.answered
    exact ⟨hreads.kernel, fun b _ hb => hreads.touches.held b (Set.notMem_empty b) hb,
      fun b hb => ⟨hb.1, Or.inr hb.2⟩⟩

/-- The operation of an open is determined by the call. -/
theorem Requests.openFile_unique {f : FileState FatFileDescriptor} {filename : Nat}
    {mode : FileMode} {s s' t t' : Sys} (h : Requests fileSystemOf f (.openFile filename mode) s s')
    (h' : Requests fileSystemOf f (.openFile filename mode) t t') : t = s ∧ t' = s' := by
  cases h with
  | openFile hreach hasked =>
    cases h' with
    | openFile hreach' hasked' =>
      obtain ⟨rfl, rfl⟩ := EStateM.Result.ok.inj (hasked.parsed.symm.trans hasked'.parsed)
      have hdisk := Option.some_inj.mp (hasked.disk_eq.symm.trans hasked'.disk_eq)
      subst hdisk
      have hfs := Option.some_inj.mp (hasked.fs_eq.symm.trans hasked'.fs_eq)
      subst hfs
      obtain ⟨-, rfl⟩ := EStateM.Result.ok.inj (hasked.answered.symm.trans hasked'.answered)
      exact ⟨rfl, rfl⟩

/-- **An open is a step** of a file system that owns what its opens make. -/
theorem openFile_callStep {f f' : FileState FatFileDescriptor} {p : FatPrivate} (own : Set Nat)
    {filename fd : Nat} {mode : FileMode} {bytes : List UInt8} (hk : KernelHeap f.sys.arena)
    (hm : Mounted f.sys p) (hpath : PathString f.sys.arena filename bytes)
    (hopen : fsOpen fileSystemOf filename mode f = .ok fd f') :
    ∃ own', CallStep fileSystemOf (f, own) (.openFile filename mode, ((fd : Int), none)) (f', own') := by
  have hreturns : runCall fileSystemOf (.openFile filename mode) f = .ok ((fd : Int), none) f' :=
    bind_of_ok hopen _
  have hpaths : ∀ filename' mode', FileCall.openFile filename mode = .openFile filename' mode' →
      ∃ bytes, PathString f.sys.arena filename' bytes := by
    rintro _ _ heq
    cases heq
    exact ⟨_, hpath⟩
  by_cases hreq : ∃ s s', Requests fileSystemOf f (.openFile filename mode) s s'
  · obtain ⟨s, s', hreq⟩ := hreq
    refine ⟨{b | Held s'.arena b ∧ ¬ Held s.arena b}, hreturns, hpaths, fun t t' hreq' => ?_,
      fun hno => absurd hreq (hno s s')⟩
    obtain ⟨rfl, rfl⟩ := hreq.openFile_unique hreq'
    exact openFile_honest hk hm hpath hreq
  · exact ⟨own, hreturns, hpaths, fun t t' hreq' => absurd ⟨t, t', hreq'⟩ hreq, fun _ => rfl⟩

/-- `fs_stat` of an open file, and the file system, which owns nothing, leave everything alone. -/
theorem stat_callStep {f : FileState FatFileDescriptor} {fd : Nat}
    {desc : FileDescriptor FatFileDescriptor} (hk : KernelHeap f.sys.arena)
    (hfound : fsFindFileDescriptor f fd = some desc) (hfs : (f.sys.disks desc.disk).fs = some .fat16) :
    CallStep fileSystemOf (f, ∅) (.stat fd, fat16Stat desc.privateData) (f, ∅) where
  returns := by
    change fsStat fileSystemOf fd f = _
    unfold fsStat onSys diskFs
    rw [get_bind, hfound]
    dsimp only
    rw [hfs]
    rfl
  path _ _ heq := by cases heq
  honest s s' hreq := by
    cases hreq with
    | @stat _ desc' fs r _ hfind hfs' hstat =>
      obtain rfl := Option.some_inj.mp (hfound.symm.trans hfind)
      obtain rfl := Option.some_inj.mp (hfs.symm.trans hfs')
      obtain ⟨-, rfl⟩ := (pure_ok_iff _ _ _ _).mp hstat
      exact ⟨hk, fun _ _ hb => hb, fun b hb => absurd hb (Set.notMem_empty b)⟩
  still _ := rfl

/-- The theorem at the FAT16 driver: a path is opened twice on a blank volume.  Both descriptors stand
alone; the first one is closed, and, after a call on the second, still refused. -/
theorem descriptors_never_alias_twice : ∃ (f f1 : FileState FatFileDescriptor)
    (desc desc' : FileDescriptor FatFileDescriptor), f.fileDescriptors 0 = some desc ∧
      f.fileDescriptors 1 = some desc' ∧ desc.index = 1 ∧ desc'.index = 2 ∧
      desc.address ≠ desc'.address ∧ fsClose fileSystemOf 1 f = .ok ok f1 ∧
      runCall fileSystemOf (.stat 2) f1 = .ok (fat16Stat desc'.privateData) f1 ∧
      ∃ code, (code = fsInvalidFileDescriptor ∨ code = invalidArgument) ∧
        runCall fileSystemOf (.stat 1) f1 = .ok (code, none) f1 := by
  have hc : IsComponent [99] := ⟨by simp, by decide, by decide⟩
  have hfile := Nat.le_refl 0x10000000
  -- the path is opened twice: the loaded root directory stays empty
  obtain ⟨s, f, q, desc, hb⟩ := blank_file hfile hc (by decide)
  have hslot : freeSlot f = some 1 := by
    unfold freeSlot
    rw [hb.made.table]
    simp [fsFreeSlotLoop, initFiles]
  obtain ⟨f2, desc', hopen2, hmade2⟩ := fsOpen_write_blank hb.blank hfile hc (by decide)
    (Nat.le_trans (by omega) hb.card) hslot
  obtain ⟨own1, hstep1⟩ := openFile_callStep ∅ hb.before.kernel hb.before.mounted
    (hb.before.pathString hfile hc) hb.opened
  obtain ⟨own2, hstep2⟩ := openFile_callStep own1 hb.blank.kernel hb.blank.mounted
    (hb.blank.pathString hfile hc) hopen2
  obtain ⟨halone, -, hstale⟩ := descriptors_never_alias hb.before.kernel (fun _ => rfl)
    (fun b hb => absurd hb (Set.notMem_empty b)) ((Run.single hstep1).tail hstep2)
  have h0 : f2.fileDescriptors 0 = some desc := by
    rw [hmade2.table, Function.update_of_ne (by decide), hb.made.table]
    exact Function.update_self _ _ _
  have h1 : f2.fileDescriptors 1 = some desc' := by
    rw [hmade2.table]
    exact Function.update_self _ _ _
  -- the first descriptor is closed
  have hm2 := hmade2.reads.mounted hb.blank.mounted
  have hfound : fsFindFileDescriptor f2 1 = some desc := by
    rw [fsFindFileDescriptor_eq]
    exact h0
  obtain ⟨a, e, d, b, c, hnew⟩ := hb.made.slot
  have ht2 := hmade2.reads.touches
  have hnew2 : NewSlot a f2.sys.arena desc e d b c := ⟨hnew.data.keep ht2, hnew.address,
    ⟨ht2.held e (Set.notMem_empty e) hnew.held.1, hnew.held.2⟩, hnew.apart⟩
  obtain ⟨code, f3, hclose, rfl, hreads3, htable3⟩ := Runs.total (fsClose_runs hmade2.reads.kernel hnew2
    hfound fun hbad => by
      rw [hb.made.disk, hm2.fs, FatItem.FreesName, hb.made.type] at hbad
      simp at hbad)
  -- a call on the second one
  have hfound3 : fsFindFileDescriptor f3 2 = some desc' := by
    rw [fsFindFileDescriptor_eq]
    change f3.fileDescriptors 1 = _
    rw [htable3, Function.update_of_ne (by decide)]
    exact h1
  have hstat := stat_callStep hreads3.kernel hfound3 (by
    rw [hmade2.disk]
    exact (hreads3.mounted hm2).fs)
  refine ⟨f2, f3, desc, desc', h0, h1, hb.made.index, hmade2.index, fun heq => ?_, hclose, hstat.returns,
    hstale 1 f3 ∅ _ f3 ∅ hclose (Run.single hstat) ?_ (.stat 1) rfl⟩
  · obtain ⟨-, -, -, -, hone⟩ := halone 0 desc h0
    exact absurd (hone 1 desc' h1 heq.symm) (by decide)
  · intro p hp filename mode heq
    rw [List.mem_singleton.mp hp] at heq
    cases heq

end KokoOs
