/-
# Mounting that fails

All outcomes of `fat16_resolve` share the exit behind its label `fin`.  On a negative result the
exit frees the private data first, and then resets the three streams of the private data through
the pointers in the freed block.  `heap_free` has cleared these, so the exit goes through NULL, and
nobody knows the streams any more: a failed mount is never clean (`failedMount_never_clean`).

The function is cut at the label (`fat16ResolveToFin`, `fat16ResolveUndo`).  However the mounting has gone,
a stream of the private data has been made when the label is reached, in a block that was free before
(`resolveToFin_made`); and behind the label the exit stops where it follows the first pointer
(`fat16Resolve_of_failed`).  So there is no volume, and no heap, on which it could come off.

A disk of zeros is enough to see it: it has no signature, and the call that finds out ends in NULL
(`unsigned_mount_faults`).
-/
import KokoOs.FileBlank

namespace KokoOs

open Bytes Prog

/-! ## 1. The two halves of the function -/

/-- `fat16_resolve` up to its label `fin`: the private data, the temporary stream and the result. -/
def fat16ResolveToFin (disk : DiskRef) : SysM (FatPrivate × Nat × Int) := do
  let fatPrivate ← fat16InitPrivateData disk
  setDisk disk fun d => { d with fsPrivate := some fatPrivate, fs := some .fat16 }
  let d ← diskOf disk
  let stream ← diskStreamNew d.id
  let (fatPrivate, result) ← fat16ResolveMount disk stream fatPrivate
  return (fatPrivate, stream, result)

/-- What the exit does on a negative result, up to the first pointer it follows in the block that it
has freed. -/
def fat16ResolveUndo (disk : DiskRef) (fatPrivate : FatPrivate) (stream : Nat) : SysM Unit := do
  if stream ≠ 0 then diskStreamClose stream
  Sys.free fatPrivate.address
  setDisk disk fun d => { d with fsPrivate := none, fs := none }

section

variable {s s1 : Sys} {q : FatPrivate} {st : Nat} {result : Int}

/-- On a negative result the exit stops where it follows a pointer of the freed block. -/
theorem fat16Resolve_of_failed {disk : DiskRef}
    (hfin : fat16ResolveToFin disk s = .ok (q, st, result) s1) (hneg : result < 0) :
    fat16Resolve disk s = (fat16ResolveUndo disk q st >>= fun _ => throw .fault) s1 := by
  have hsplit : fat16Resolve disk = fat16ResolveToFin disk >>= fun r => do
      if r.2.1 ≠ 0 then diskStreamClose r.2.1
      if r.2.2 < 0 then
        Sys.free r.1.address
        setDisk disk fun d => { d with fsPrivate := none, fs := none }
        throw .fault
      else
        fat16ResetPrivateDiskStreams r.1
        return r.2.2 := by
    simp only [fat16Resolve, fat16ResolveToFin, bind_assoc, pure_bind]
  rw [hsplit, bind_of_ok hfin]
  unfold fat16ResolveUndo
  simp only [if_pos hneg]
  split
  · simp only [bind_assoc]
  · simp only [bind_assoc]

/-! ## 2. The streams that are lost -/

/-- Taking blocks frees none. -/
theorem Sys.malloc_back {n p : Nat} (hk : KernelHeap s.arena) (h0 : 0 < n) (hn : n ≤ 4096)
    (h : Sys.malloc n s = .ok p s1) : ∃ b, p = blockAt b ∧ Alloc s.arena s1.arena b := by
  obtain ⟨a, ha, rfl⟩ := onArena_ok_iff.mp h
  exact hk.alloc h0 hn ha

/-- The object at `st` has been made since `s`, of a block that was free. -/
def Taken (s s1 : Sys) (st : Nat) : Prop :=
  ∃ b, st = blockAt b ∧ Held s1.arena b ∧ heapEntryIsFree (s.arena.heap.table.entry b) = true

theorem Sys.zalloc_back {n p : Nat} (hk : KernelHeap s.arena) (h0 : 0 < n) (hn : n ≤ 4096)
    (h : Sys.zalloc n s = .ok p s1) : ∀ c < 25600,
      heapEntryIsFree (s1.arena.heap.table.entry c) = true →
      heapEntryIsFree (s.arena.heap.table.entry c) = true := by
  obtain ⟨a, ha, rfl⟩ := onArena_ok_iff.mp h
  unfold KokoOs.zalloc at ha
  obtain ⟨p', a1, hmalloc, ha⟩ := (bind_ok_iff _ _ _ _ _).mp ha
  obtain ⟨_, a2, hstore, ha⟩ := (bind_ok_iff _ _ _ _ _).mp ha
  obtain rfl := (modify_ok_iff _ _ _ _).mp hstore
  obtain ⟨rfl, rfl⟩ := (pure_ok_iff _ _ _ _).mp ha
  obtain ⟨b, -, halloc⟩ := hk.alloc h0 hn hmalloc
  exact halloc.back

/-- A new stream is a new object. -/
theorem diskStreamNew_taken (hk : KernelHeap s.arena) (h : diskStreamNew 0 s = .ok st s1) :
    Taken s s1 st ∧ ∀ c < 25600, heapEntryIsFree (s1.arena.heap.table.entry c) = true →
      heapEntryIsFree (s.arena.heap.table.entry c) = true := by
  change (Sys.malloc 8 >>= fun st => setStream st (fun _ => ⟨0, primaryDisk⟩) >>=
    fun _ => pure st) s = _ at h
  obtain ⟨st', s2, hmalloc, h⟩ := (bind_ok_iff _ _ _ _ _).mp h
  obtain ⟨_, s3, hset, h⟩ := (bind_ok_iff _ _ _ _ _).mp h
  obtain rfl := (modify_ok_iff _ _ _ _).mp hset
  obtain ⟨rfl, rfl⟩ := (pure_ok_iff _ _ _ _).mp h
  obtain ⟨b, rfl, halloc⟩ := Sys.malloc_back hk (by omega) (by omega) hmalloc
  exact ⟨⟨b, rfl, halloc.held, halloc.free⟩, halloc.back⟩

/-- The first stream of the private data. -/
theorem initPrivateData_taken (hk : KernelHeap s.arena) (hid : (s.disks primaryDisk).id = 0)
    (h : fat16InitPrivateData primaryDisk s = .ok q s1) :
    Taken s s1 q.fatReadStream ∧ q.fatReadStream ≠ q.address := by
  unfold fat16InitPrivateData at h
  obtain ⟨d, s', hd, h⟩ := (bind_ok_iff _ _ _ _ _).mp h
  obtain ⟨rfl, rfl⟩ := Runs.value (diskOf_runs
    (Q := fun d s' => d = s.disks primaryDisk ∧ s' = s) ⟨rfl, rfl⟩) hd
  rw [hid] at h
  obtain ⟨p, s2, hzalloc, h⟩ := (bind_ok_iff _ _ _ _ _).mp h
  obtain ⟨b, rfl, hnew, h2, -⟩ := Runs.value (Sys.zalloc_runs hk (by omega) (by omega)
    fun _ _ => trivial) hzalloc
  obtain ⟨st2, s3, hnew2, h⟩ := (bind_ok_iff _ _ _ _ _).mp h
  obtain ⟨⟨c, rfl, hheld, hfree⟩, -⟩ := diskStreamNew_taken h2.kernel hnew2
  obtain ⟨st3, s4, hnew3, h⟩ := (bind_ok_iff _ _ _ _ _).mp h
  obtain ⟨st4, s5, hnew4, h⟩ := (bind_ok_iff _ _ _ _ _).mp h
  obtain ⟨rfl, rfl⟩ := (pure_ok_iff _ _ _ _).mp h
  have h3 := (Runs.value (diskStreamNew_runs h2.kernel fun _ _ => trivial) hnew2).1
  have h4 := (Runs.value (diskStreamNew_runs h3.kernel fun _ _ => trivial) hnew3).1
  have h5 := (Runs.value (diskStreamNew_runs h4.kernel fun _ _ => trivial) hnew4).1
  refine ⟨⟨c, rfl, (h4.trans h5).touches.held c (Set.notMem_empty c) hheld,
    Sys.zalloc_back hk (by omega) (by omega) hzalloc c hheld.lt hfree⟩, fun heq => ?_⟩
  rw [blockAt_inj heq, hnew.held.word] at hfree
  exact absurd hfree (by decide)

/-- `a` as if block `b` were free. -/
def without (a : Arena) (b : Nat) : Arena :=
  ⟨{ a.heap with table := a.heap.table.setEntry b heapEntryFree }, a.mem⟩

theorem held_without_iff {a : Arena} {b c : Nat} (hb : b < 25600) :
    Held (without a b) c ↔ Held a c ∧ c ≠ b := by
  have hword : (without a b).heap.table.entry c =
      if c % 2 ^ 30 = b % 2 ^ 30 then heapEntryFree else a.heap.table.entry c :=
    HeapTable.entry_setEntry _ _ _ _
  constructor
  · rintro ⟨hlt, hw⟩
    rw [hword] at hw
    split at hw
    · exact absurd hw (by decide)
    · exact ⟨⟨hlt, hw⟩, by rintro rfl; contradiction⟩
  · rintro ⟨⟨hlt, hw⟩, hne⟩
    refine ⟨hlt, ?_⟩
    rw [hword, if_neg (by omega)]
    exact hw

theorem card_without {a : Arena} (hk : KernelHeap a) {b : Nat} (hb : b < 25600) :
    (freeBlocks (without a b).heap).card ≤ (freeBlocks a.heap).card + 1 := by
  refine Nat.le_trans (Finset.card_le_card fun c hc => ?_) (Finset.card_insert_le b _)
  obtain ⟨hlt, hfree⟩ := mem_freeBlocks.mp hc
  have hword : (without a b).heap.table.entry c =
      if c % 2 ^ 30 = b % 2 ^ 30 then heapEntryFree else a.heap.table.entry c :=
    HeapTable.entry_setEntry _ _ _ _
  have hlt' : c < 25600 := hk.total ▸ hlt
  rw [hword] at hfree
  rw [Finset.mem_insert, mem_freeBlocks]
  by_cases hcb : c = b
  · exact Or.inl hcb
  · rw [if_neg (by omega)] at hfree
    exact Or.inr ⟨hlt, hfree⟩

/-- What has been made when `fat16_resolve` is at `fin`: the private data and the temporary stream,
which the exit releases, and an object `c` which it does not know of. -/
structure AtFin (s s1 : Sys) (q : FatPrivate) (st : Nat) (ba bs c : Nat) : Prop where
  kernel : KernelHeap s1.arena
  address : q.address = blockAt ba
  stream : st = blockAt bs
  held : ∀ b ∈ ({ba, bs, c} : Set Nat), Held s1.arena b
  apart : ba ≠ bs ∧ c ≠ ba ∧ c ≠ bs
  free : heapEntryIsFree (s.arena.heap.table.entry c) = true

/-- **A stream of the private data is there at `fin`**, however the mounting has gone. -/
theorem resolveToFin_made (hk : KernelHeap s.arena) (hid : (s.disks primaryDisk).id = 0)
    (hsize : (s.disks primaryDisk).sectorSize = 512)
    (h : fat16ResolveToFin primaryDisk s = .ok (q, st, result) s1) :
    ∃ ba bs c, AtFin s s1 q st ba bs c := by
  unfold fat16ResolveToFin at h
  obtain ⟨q0, t1, hinit, h⟩ := (bind_ok_iff _ _ _ _ _).mp h
  obtain ⟨⟨c, hc, hheld, hfree⟩, hne⟩ := initPrivateData_taken hk hid hinit
  obtain ⟨h1, hstreams, ⟨ba, haddr, hba, -⟩, -⟩ := Runs.value (initPrivateData_runs hk hid
    fun _ _ => trivial) hinit
  obtain ⟨_, t2, hset, h⟩ := (bind_ok_iff _ _ _ _ _).mp h
  obtain rfl := (modify_ok_iff _ _ _ _).mp hset
  obtain ⟨d, t3, hd, h⟩ := (bind_ok_iff _ _ _ _ _).mp h
  obtain ⟨rfl, rfl⟩ := Runs.value (diskOf_runs
    (Q := fun d s' => d = s'.disks primaryDisk ∧ s' = _) ⟨rfl, rfl⟩) hd
  dsimp only at h
  rw [Function.update_self] at h
  dsimp only at h
  have hdisk : t1.disks primaryDisk = s.disks primaryDisk := congrFun h1.disks _
  rw [hdisk, hid] at h
  obtain ⟨st', t4, hnew, h⟩ := (bind_ok_iff _ _ _ _ _).mp h
  obtain ⟨h4, ⟨bs, rfl, hbs⟩, hst, hcard⟩ := Runs.value (diskStreamNew_runs (by exact h1.kernel)
    fun _ _ => trivial) hnew
  obtain ⟨⟨q1, r1⟩, t5, hmount, h⟩ := (bind_ok_iff _ _ _ _ _).mp h
  obtain ⟨heq, rfl⟩ := (pure_ok_iff _ _ _ _).mp h
  obtain ⟨rfl, rfl, rfl⟩ : q1 = q ∧ blockAt bs = st ∧ r1 = result := by
    simpa only [Prod.mk.injEq] using heq
  have hca : c ≠ ba := fun heq => hne (by rw [hc, haddr, heq])
  have hbsa : ba ≠ bs := fun heq => hbs.fresh (heq ▸ hba)
  have hcbs : c ≠ bs := fun heq => hbs.fresh (heq ▸ hheld)
  -- the mounting is followed from a state in which all but the private data are there already
  let base : Sys := { t1 with arena := without t1.arena ba }
  have hbase : ∀ b, Held base.arena b ↔ Held t1.arena b ∧ b ≠ ba := fun b =>
    held_without_iff hba.lt
  have hkeep : ∀ b, Held t1.arena b → Held t4.arena b := fun b hb =>
    h4.touches.held b (Set.notMem_empty b) hb
  have hm : Mounting base t4 q0 ba bs := by
    refine ⟨h4.mounted ⟨?_, ?_, ?_, hstreams.1, hstreams.2.1, hstreams.2.2⟩, ⟨h4.kernel,
      fun b _ hb => hkeep b ((hbase b).mp hb).1, fun b _ hb => h4.touches.bytes b
      (Set.notMem_empty b) ((hbase b).mp hb).1, fun x hx _ => h4.touches.outside x hx
      (Set.notMem_empty x)⟩, h4.ata, haddr, ?_⟩
    · simp only [Function.update_self]
    · simp only [Function.update_self]
    · simp only [Function.update_self]
      exact hsize
    · rintro b (rfl | rfl)
      · exact ⟨hkeep b hba, fun hb => ((hbase b).mp hb).2 rfl⟩
      · exact ⟨hbs.held, fun hb => hbs.fresh ((hbase b).mp hb).1⟩
  have hres := (Runs.value (resolveMount_runs hm hst (fun _ _ => trivial) fun hb => ?_) hmount).mounting
  · refine ⟨ba, bs, c, hres.touches.kernel, hres.address, rfl, ?_, ⟨hbsa, hca, hcbs⟩, hfree⟩
    rintro b (rfl | rfl | rfl)
    · exact (hres.held b (by simp)).1
    · exact (hres.held b (by simp)).1
    · exact hres.touches.held b (Set.notMem_empty b) ((hbase b).mpr ⟨hheld, hca⟩)
  · have hfree8 := hb.free
    have hmore := card_without h1.kernel hba.lt
    change (freeBlocks t4.arena.heap).card + 1 = (freeBlocks t1.arena.heap).card at hcard
    change 8 ≤ (freeBlocks (without t1.arena ba).heap).card at hfree8
    omega

/-! ## 3. No failed mount is clean -/

/-- The call has answered `result`, and what is left is what there was, and no file system. -/
def CleanFailure (s : Sys) (result : Int) : Prop := ∃ s',
  fat16Resolve primaryDisk s = .ok result s' ∧
    (∀ b < 25600, heapEntryIsFree (s'.arena.heap.table.entry b) =
      heapEntryIsFree (s.arena.heap.table.entry b)) ∧
    (s'.disks primaryDisk).fs = none ∧ (s'.disks primaryDisk).fsPrivate = none

/-- **No failed mount is clean.**  Whenever the result is negative at `fin`, the call goes on through
a pointer in the block that it has freed, with no file system on the disk and a block taken that was
free before. -/
theorem failedMount_never_clean (hk : KernelHeap s.arena) (hid : (s.disks primaryDisk).id = 0)
    (hsize : (s.disks primaryDisk).sectorSize = 512)
    (hfin : fat16ResolveToFin primaryDisk s = .ok (q, st, result) s1) (hneg : result < 0) :
    ¬ CleanFailure s result ∧ ∃ s', fat16Resolve primaryDisk s = .error .fault s' ∧
      (s'.disks primaryDisk).fs = none ∧ (s'.disks primaryDisk).fsPrivate = none ∧
      ∃ b < 25600, heapEntryIsFree (s.arena.heap.table.entry b) = true ∧
        heapEntryIsFree (s'.arena.heap.table.entry b) = false := by
  obtain ⟨ba, bs, c, h⟩ := resolveToFin_made hk hid hsize hfin
  obtain ⟨hab, hca, hcb⟩ := h.apart
  have hundo : Runs (fun _ => False) (fat16ResolveUndo primaryDisk q st) s1 fun _ s' =>
      Held s'.arena c ∧ (s'.disks primaryDisk).fs = none ∧
        (s'.disks primaryDisk).fsPrivate = none := by
    unfold fat16ResolveUndo
    rw [h.stream, h.address, if_pos (Nat.ne_of_gt (blockAt_pos bs))]
    refine Runs.bind (Sys.free_runs h.kernel (h.held bs (by simp))) ?_
    rintro - s2 ⟨h2, -⟩
    have hkeep : ∀ b, b ≠ bs → Held s1.arena b → Held s2.arena b := fun b hb =>
      h2.touches.held b fun hin => hb (Set.mem_singleton_iff.mp hin)
    refine Runs.bind (Sys.free_runs h2.kernel (hkeep ba hab (h.held ba (by simp)))) ?_
    rintro - s3 ⟨h3, -⟩
    refine Runs.modify ⟨h3.touches.held c (fun hin => hca (Set.mem_singleton_iff.mp hin))
      (hkeep c hcb (h.held c (by simp))), ?_, ?_⟩
    · simp only [Function.update_self]
    · simp only [Function.update_self]
  obtain ⟨_, s', hrun, hheld, hfs, hpriv⟩ := hundo.total
  have hcall : fat16Resolve primaryDisk s = .error .fault s' := by
    rw [fat16Resolve_of_failed hfin hneg, bind_of_ok hrun]
    rfl
  refine ⟨?_, s', hcall, hfs, hpriv, c, hheld.lt, h.free, ?_⟩
  · rintro ⟨s'', hok, -⟩
    rw [hcall] at hok
    cases hok
  · rw [hheld.word]
    decide

end

/-! ## 4. A wrong signature -/

section

variable {s : Sys}

/-- Without the signature the result is `WRONG_FILESYSTEM`, if the first sector can be read at all. -/
theorem resolveToFin_unsigned (hk : KernelHeap s.arena) (hid : (s.disks primaryDisk).id = 0)
    (hcard : 6 ≤ (freeBlocks s.arena.heap).card) (hsectors : 0 < s.ata.sectors)
    (hsig : (volumeHeader s).bootSignature ≠ 41) : ∃ q st s1,
      fat16ResolveToFin primaryDisk s = .ok (q, st, wrongFilesystem) s1 := by
  have hruns : Runs (fun _ => False) (fat16ResolveToFin primaryDisk) s fun r _ =>
      r.2.2 = wrongFilesystem := by
    unfold fat16ResolveToFin
    refine Runs.bind (initPrivateData_runs hk hid fun h => by omega) ?_
    rintro q t1 ⟨h1, -, ⟨ba, haddr, hba, -⟩, hcard1⟩
    let d2 : Disk := { t1.disks primaryDisk with fsPrivate := some q, fs := some .fat16 }
    let t2 : Sys := ⟨t1.arena, t1.ata, Function.update t1.disks primaryDisk d2, t1.streams⟩
    refine Runs.bind (Runs.modify (Q := fun _ s' => s' = t2) rfl) ?_
    rintro - s' rfl
    refine Runs.bind (diskOf_runs (Q := fun d s' => d.id = 0 ∧ s' = t2) ⟨?_, rfl⟩) ?_
    · change (Function.update t1.disks primaryDisk d2 primaryDisk).id = 0
      rw [Function.update_self, ← hid, ← h1.disks]
    rintro d s' ⟨hd, rfl⟩
    rw [hd]
    refine Runs.bind (diskStreamNew_runs (s := t2) h1.kernel fun h => ?_) ?_
    · change (freeBlocks t1.arena.heap).card = 0 at h
      omega
    rintro st t3 ⟨h3, ⟨bs, rfl, hnew⟩, hst, hcard3⟩
    change (freeBlocks t3.arena.heap).card + 1 = (freeBlocks t1.arena.heap).card at hcard3
    have hata : t3.ata = s.ata := h3.ata.trans h1.ata
    have hba3 : Held t3.arena ba := h3.touches.held ba (Set.notMem_empty ba) hba
    have hpos : (t3.streams (blockAt bs)).pos = 0 := congrArg DiskStream.pos hst
    refine Runs.bind (Q := fun r _ => r.2 = wrongFilesystem) ?_ ?_
    · unfold fat16ResolveMount
      rw [if_neg (Nat.ne_of_gt (blockAt_pos bs)), haddr]
      refine Runs.bind (diskStreamRead_sector h3.kernel (congrArg DiskStream.disk hst)
        (by omega) (by omega) fun hbad => ?_) ?_
      · rw [hpos, hata] at hbad
        omega
      rintro code t4 ⟨rfl, h4⟩
      rw [if_neg (by simp)]
      have hread : FatHeader.read t4.arena.mem (blockAt ba) = volumeHeader s := by
        refine FatHeader.read_congr fun i hi => ?_
        rw [h4.bytes (hba3.owned h3.kernel (by omega)) i hi (by rw [hpos]; omega), hpos, hata]
      refine Runs.get_bind ?_
      dsimp only
      rw [hread]
      refine Runs.bind (Runs.modify (Q := fun _ _ => True) trivial) ?_
      rintro - t5 -
      rw [if_pos hsig]
      exact Runs.pure rfl
    · rintro ⟨q', result⟩ t4 rfl
      exact Runs.pure rfl
  obtain ⟨⟨q, st, result⟩, s1, hrun, rfl⟩ := hruns.total
  exact ⟨q, st, s1, hrun⟩

end

/-- A disk without a signature: every byte is 0. -/
def unsignedSys : Sys where
  arena := freshKernel fun _ => 0
  ata := { sectors := 100, image := fun _ => 0 }
  disks := fun _ => { id := 0, type := 0, sectorSize := 512, fs := none, fsPrivate := none }
  streams := fun _ => { pos := 0, disk := primaryDisk }

theorem unsignedSys_atFin : ∃ q st s1,
    fat16ResolveToFin primaryDisk unsignedSys = .ok (q, st, wrongFilesystem) s1 := by
  have hcard : (freeBlocks unsignedSys.arena.heap).card = 25600 := freshKernel_free _
  refine resolveToFin_unsigned (freshKernel_kernelHeap _) rfl (by omega) (by decide) ?_
  change (FatHeader.read (fun _ => 0) 0).bootSignature ≠ 41
  decide

/-- The theorem at a disk of zeros. -/
theorem failedMount_never_clean_unsigned : ∃ q st s1,
    fat16ResolveToFin primaryDisk unsignedSys = .ok (q, st, wrongFilesystem) s1 ∧
      ¬ CleanFailure unsignedSys wrongFilesystem := by
  obtain ⟨q, st, s1, hfin⟩ := unsignedSys_atFin
  exact ⟨q, st, s1, hfin, (failedMount_never_clean (freshKernel_kernelHeap _) rfl rfl hfin
    (by decide)).1⟩

/-- **A disk of zeros is not left as it was**: it has no signature, and the call that finds out ends
in NULL. -/
theorem unsigned_mount_faults : ¬ ∀ (s s1 : Sys) (q : FatPrivate) (st : Nat) (result : Int),
    KernelHeap s.arena → (s.disks primaryDisk).id = 0 → (s.disks primaryDisk).sectorSize = 512 →
    fat16ResolveToFin primaryDisk s = .ok (q, st, result) s1 → result < 0 →
    CleanFailure s result := by
  intro hclaim
  obtain ⟨q, st, s1, hfin⟩ := unsignedSys_atFin
  obtain ⟨s', hok, htaken, -⟩ := hclaim unsignedSys s1 q st wrongFilesystem
    (freshKernel_kernelHeap _) rfl rfl hfin (by decide)
  rw [fat16Resolve_of_failed hfin (by decide)] at hok
  obtain ⟨_, t, -, hthrow⟩ := (bind_ok_iff _ _ _ _ _).mp hok
  exact (throw_ok_iff _ _ _ _).mp hthrow

end KokoOs
