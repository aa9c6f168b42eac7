/-
# What only looks at the disk

No operation of the driver but a write changes a byte of the device, mounts or unmounts a disk, or
moves a stream to another disk (`Still`).  This takes no condition at all -- on the heap, on what is
mounted, or on the addresses that are passed -- so it holds of every run that returns.

`Still` is a preorder, and each function is shown to stay in it by the constructs that it is made of; where
one is called in a loop, by induction on the fuel.  None of these lemmas needs to know what its function
computes, which is why they come apart from those that say it.

Of a write the same is said with the bytes it was given taken out (`WritesAt`).  The sectors around them
are read first and put back as they were (`diskStreamWrite_writesAt`), so a write to a file that has a
cluster changes the bytes at that cluster and nothing else (`fat16Write_later`).
-/
import KokoOs.Fat16Write
import KokoOs.FileSpec

namespace KokoOs

open Bytes Prog

/-! ## 1. The device and the disks -/

/-- The device and the disks are the same, and no stream has left the primary disk. -/
structure Still (s s' : Sys) : Prop where
  ata : s'.ata = s.ata
  disks : s'.disks = s.disks
  streams : ∀ st, (s.streams st).disk = primaryDisk → (s'.streams st).disk = primaryDisk

instance : IsPreorder Sys Still where
  refl _ := ⟨rfl, rfl, fun _ h => h⟩
  trans _ _ _ h h' := ⟨h'.ata.trans h.ata, h'.disks.trans h.disks,
    fun st hst => h'.streams st (h.streams st hst)⟩

section

variable {α : Type}

theorem still_onArena (m : HeapM α) : Keeps Still (onArena m) :=
  Keeps.zoom (S := fun _ _ => True) (fun _ _ _ _ => trivial) fun _ _ _ => ⟨rfl, rfl, fun _ h => h⟩

theorem still_zalloc (n : Nat) : Keeps Still (Sys.zalloc n) := still_onArena _

theorem still_free (address : Nat) : Keeps Still (Sys.free address) := still_onArena _

theorem still_storeMem (f : Mem → Mem) : Keeps Still (storeMem f) :=
  Keeps.modify fun _ => ⟨rfl, rfl, fun _ h => h⟩

theorem still_orFault (o : Option α) : Keeps Still (orFault o) := by
  cases o with
  | none => exact Keeps.throw _
  | some x => exact Keeps.pure x

theorem still_orHangs (o : Option α) : Keeps Still (orHangs o) := by
  cases o with
  | none => exact Keeps.throw _
  | some x => exact Keeps.pure x

theorem still_fsPrivate (disk : DiskRef) : Keeps Still (fsPrivate disk) :=
  Keeps.get_bind fun _ => still_orFault _

theorem still_diskOf (disk : DiskRef) : Keeps Still (diskOf disk) :=
  Keeps.get_bind fun _ => Keeps.pure _

/-- A stream changes its position. -/
theorem still_setPos (stream : Nat) (pos : DiskStream → Nat) :
    Keeps Still (setStream stream fun st => { st with pos := pos st }) := by
  refine Keeps.modify fun s => ⟨rfl, rfl, fun st hst => ?_⟩
  dsimp only
  by_cases h : st = stream
  · rw [h, Function.update_self]
    exact h ▸ hst
  · rwa [Function.update_of_ne h]

theorem still_diskStreamSeek (stream pos : Nat) : Keeps Still (diskStreamSeek stream pos) :=
  Keeps.bind (still_setPos stream fun _ => pos) fun _ => Keeps.pure _

theorem still_diskReadBlock (disk : DiskRef) (buffer lba n : Nat) :
    Keeps Still (diskReadBlock disk buffer lba n) := by
  unfold diskReadBlock diskReadSector
  refine Keeps.ite (Keeps.pure _) (Keeps.ite (Keeps.pure _) (Keeps.get_bind fun s => ?_))
  exact Keeps.ite (Keeps.throw _) (Keeps.bind (still_storeMem _) fun _ => Keeps.pure _)

/-- **A read looks only.** -/
theorem still_diskStreamRead (stream buffer n : Nat) :
    Keeps Still (diskStreamRead stream buffer n) := by
  unfold diskStreamRead
  refine Keeps.ite (Keeps.pure _) (Keeps.get_bind fun s => Keeps.bind (still_onArena _) fun p =>
    Keeps.bind (still_diskReadBlock _ _ _ _) fun res => Keeps.ite ?_ ?_)
  · exact Keeps.bind (still_free _) fun _ => Keeps.pure _
  · refine Keeps.bind (still_storeMem _) fun _ => Keeps.bind (still_setPos stream fun st =>
      (st.pos + n) % 2 ^ 32) fun _ => Keeps.bind (still_free _) fun _ => Keeps.pure _

/-! ## 2. Reading -/

theorem still_getFatEntry (disk : DiskRef) (cluster : Nat) :
    Keeps Still (fat16GetFatEntry disk cluster) := by
  unfold fat16GetFatEntry
  refine Keeps.bind (still_fsPrivate disk) fun p => Keeps.ite (Keeps.pure _) ?_
  refine Keeps.bind (still_diskStreamSeek _ _) fun res => Keeps.ite (Keeps.pure _) ?_
  refine Keeps.bind (still_diskStreamRead _ _ _) fun res => Keeps.ite (Keeps.pure _) ?_
  exact Keeps.get_bind fun s => Keeps.pure _

theorem still_walkClusters (disk : DiskRef) (fuel cluster : Nat) :
    Keeps Still (fat16WalkClusters disk fuel cluster) := by
  induction fuel generalizing cluster with
  | zero => exact Keeps.pure _
  | succ fuel ih =>
    unfold fat16WalkClusters
    exact Keeps.bind (still_getFatEntry disk cluster) fun entry => Keeps.ite (Keeps.pure _) (ih _)

theorem still_getClusterForOffset (disk : DiskRef) (cluster offset : Nat) :
    Keeps Still (fat16GetClusterForOffset disk cluster offset) := by
  unfold fat16GetClusterForOffset
  exact Keeps.bind (still_diskOf disk) fun d => Keeps.bind (still_fsPrivate disk) fun p =>
    Keeps.ite (Keeps.throw _) (still_walkClusters disk _ _)

theorem still_readInternalFromStream (disk : DiskRef) (stream fuel cluster offset total out : Nat) :
    Keeps Still (fat16ReadInternalFromStream disk stream fuel cluster offset total out) := by
  induction fuel generalizing cluster offset total out with
  | zero => exact Keeps.throw _
  | succ fuel ih =>
    unfold fat16ReadInternalFromStream
    refine Keeps.bind (still_getClusterForOffset disk _ _) fun res => Keeps.ite (Keeps.pure _) ?_
    refine Keeps.bind (still_diskOf disk) fun d => Keeps.bind (still_fsPrivate disk) fun p => ?_
    refine Keeps.bind (still_diskStreamSeek _ _) fun res => Keeps.ite (Keeps.pure _) ?_
    refine Keeps.bind (still_diskStreamRead _ _ _) fun res => Keeps.ite (Keeps.pure _) ?_
    exact Keeps.ite (ih _ _ _ _) (Keeps.pure _)

theorem still_readInternal (disk : DiskRef) (cluster offset total out : Nat) :
    Keeps Still (fat16ReadInternal disk cluster offset total out) :=
  Keeps.bind (still_fsPrivate disk) fun _ => still_readInternalFromStream _ _ _ _ _ _ _

theorem still_countItems (stream fuel : Nat) (n : Int) :
    Keeps Still (fat16CountItems stream fuel n) := by
  induction fuel generalizing n with
  | zero => exact Keeps.throw _
  | succ fuel ih =>
    unfold fat16CountItems
    refine Keeps.bind (still_diskStreamRead _ _ _) fun res => Keeps.ite (Keeps.pure _) ?_
    exact Keeps.get_bind fun s => Keeps.ite (Keeps.pure _) (Keeps.ite (ih _) (ih _))

theorem still_getTotalItems (disk : DiskRef) (startSector : Nat) :
    Keeps Still (fat16GetTotalItemsForDirectory disk startSector) := by
  unfold fat16GetTotalItemsForDirectory
  refine Keeps.bind (still_diskOf disk) fun d => Keeps.bind (still_fsPrivate disk) fun p => ?_
  exact Keeps.bind (still_diskStreamSeek _ _) fun res =>
    Keeps.ite (Keeps.pure _) (still_countItems _ _ _)

theorem still_read (disk : DiskRef) (out : Nat) (desc : FatFileDescriptor) (size nmemb : Nat) :
    Keeps Still (fat16Read disk out desc size nmemb) := by
  have hloop : ∀ fuel offset tempOut,
      Keeps Still (fat16ReadLoop disk desc.item.item size fuel offset tempOut) := by
    intro fuel
    induction fuel with
    | zero => exact fun _ _ => Keeps.pure _
    | succ fuel ih =>
      intro offset tempOut
      unfold fat16ReadLoop
      exact Keeps.bind (still_readInternal disk _ _ _ _) fun res => Keeps.ite (Keeps.pure _) (ih _ _)
  exact Keeps.ite (Keeps.pure _) (hloop _ _ _)

/-! ## 3. Opening and closing -/

theorem still_freeDirectory (item : FatItem) : Keeps Still (fat16FreeDirectory item) := by
  unfold fat16FreeDirectory freeWild
  split
  · exact Keeps.bind (Keeps.bind (still_free _) fun _ => Keeps.throw _) fun _ => still_free _
  · exact still_free _

theorem still_freeItem (item : FatItem) : Keeps Still (fat16FreeItem item) := by
  unfold fat16FreeItem
  cases item.type with
  | directory => exact Keeps.bind (still_freeDirectory item) fun _ => still_free _
  | file => exact Keeps.bind (still_free _) fun _ => still_free _

theorem still_cloneDirectoryItem (dirItem : FatDirectoryItem) (size : Nat) :
    Keeps Still (fat16CloneDirectoryItem dirItem size) := by
  unfold fat16CloneDirectoryItem
  refine Keeps.ite (Keeps.pure _) (Keeps.bind (still_zalloc _) fun p => Keeps.ite (Keeps.pure _) ?_)
  exact Keeps.bind (still_storeMem _) fun _ => Keeps.pure _

theorem still_loadFatDirectory (disk : DiskRef) (dirItem : FatDirectoryItem) :
    Keeps Still (fat16LoadFatDirectory disk dirItem) := by
  unfold fat16LoadFatDirectory
  refine Keeps.ite (Keeps.pure _) (Keeps.bind (still_zalloc _) fun p => Keeps.ite (Keeps.pure _) ?_)
  refine Keeps.bind (still_fsPrivate disk) fun q => Keeps.bind (still_getTotalItems disk _) fun n => ?_
  refine Keeps.bind (still_zalloc _) fun item => Keeps.ite ?_ ?_
  · exact Keeps.bind (still_free _) fun _ => Keeps.pure _
  · refine Keeps.bind (still_readInternal disk _ _ _ _) fun res => Keeps.ite ?_ (Keeps.pure _)
    exact Keeps.bind (still_free _) fun _ => Keeps.bind (still_free _) fun _ => Keeps.pure _

theorem still_newFatItem (disk : DiskRef) (dirItem : FatDirectoryItem) :
    Keeps Still (fat16NewFatItemForDirectoryItem disk dirItem) := by
  unfold fat16NewFatItemForDirectoryItem
  refine Keeps.bind (still_zalloc _) fun p => Keeps.ite (Keeps.pure _) (Keeps.ite ?_ ?_)
  · exact Keeps.bind (still_loadFatDirectory disk dirItem) fun _ =>
      Keeps.bind (still_cloneDirectoryItem _ _) fun _ => Keeps.pure _
  · exact Keeps.bind (still_cloneDirectoryItem _ _) fun _ => Keeps.pure _

theorem still_findLoop (disk : DiskRef) (directory : FatDirectory) (name fuel i : Nat)
    (item : Option FatItem) : Keeps Still (fat16FindLoop disk directory name fuel i item) := by
  induction fuel generalizing i item with
  | zero => exact Keeps.pure _
  | succ fuel ih =>
    unfold fat16FindLoop
    refine Keeps.bind (still_orFault _) fun dirItem => Keeps.bind (still_orFault _) fun tmp => ?_
    refine Keeps.get_bind fun s => Keeps.bind (still_orHangs _) fun cmp => Keeps.ite ?_ (ih _ _)
    exact Keeps.bind (still_newFatItem disk dirItem) fun item => ih _ _

theorem still_directoryEntryLoop (fuel nextPart : Nat) (item : Option FatItem) :
    Keeps Still (fat16DirectoryEntryLoop fuel nextPart item) := by
  induction fuel generalizing nextPart item with
  | zero => exact Keeps.throw _
  | succ fuel ih =>
    unfold fat16DirectoryEntryLoop
    refine Keeps.ite (Keeps.pure _) (Keeps.bind (still_orFault _) fun it => ?_)
    refine Keeps.ite (Keeps.pure _) (Keeps.bind ?_ fun tmp => ?_)
    · exact Keeps.ite (Keeps.pure _) (Keeps.throw _)
    · exact Keeps.bind (still_freeItem it) fun _ => Keeps.get_bind fun s => ih _ _

theorem still_getDirectoryEntry (disk : DiskRef) (path : Nat) :
    Keeps Still (fat16GetDirectoryEntry disk path) := by
  unfold fat16GetDirectoryEntry
  refine Keeps.bind (still_fsPrivate disk) fun p => Keeps.get_bind fun s => ?_
  refine Keeps.bind (still_findLoop disk _ _ _ _ _) fun r => ?_
  cases r with
  | none => exact Keeps.pure _
  | some item => exact Keeps.get_bind fun s => still_directoryEntryLoop _ _ _

theorem still_newFileItem : Keeps Still fat16NewFileItem :=
  Keeps.bind (still_zalloc _) fun _ => Keeps.bind (still_zalloc _) fun _ =>
    Keeps.bind (still_storeMem _) fun _ => Keeps.pure _

/-- **Opening looks only**, also if it makes a new file. -/
theorem still_open (disk : DiskRef) (path : Nat) (mode : FileMode) :
    Keeps Still (fat16Open disk path mode) := by
  cases mode with
  | read =>
    change Keeps Still (fat16OpenForRead disk path)
    unfold fat16OpenForRead
    refine Keeps.bind (still_zalloc _) fun p => Keeps.ite (Keeps.pure _) ?_
    refine Keeps.bind (still_getDirectoryEntry disk path) fun item => ?_
    cases item with
    | none => exact Keeps.bind (still_free _) fun _ => Keeps.pure _
    | some item => exact Keeps.pure _
  | write =>
    change Keeps Still (fat16OpenForWrite disk path)
    unfold fat16OpenForWrite
    refine Keeps.bind (still_zalloc _) fun p => Keeps.ite (Keeps.pure _) ?_
    refine Keeps.bind (still_getDirectoryEntry disk path) fun item => ?_
    cases item with
    | none => exact Keeps.bind still_newFileItem fun item => Keeps.pure _
    | some item => exact Keeps.pure _
  | append => exact Keeps.pure _

theorem still_close (desc : FatFileDescriptor) : Keeps Still (fat16Close desc) :=
  Keeps.bind (still_freeItem desc.item) fun _ => Keeps.bind (still_free _) fun _ => Keeps.pure _

/-! ## 4. Writing -/

/-- Of the device, only the `n` bytes at `pos` have changed. -/
structure WritesAt (pos n : Nat) (s s' : Sys) : Prop where
  disks : s'.disks = s.disks
  streams : ∀ st, (s.streams st).disk = primaryDisk → (s'.streams st).disk = primaryDisk
  sectors : s'.ata.sectors = s.ata.sectors
  image : ∀ x, ¬ (pos ≤ x ∧ x < pos + n) → s'.ata.image x = s.ata.image x

theorem Still.writesAt {s s' : Sys} (h : Still s s') (pos n : Nat) : WritesAt pos n s s' :=
  ⟨h.disks, h.streams, by rw [h.ata], fun _ _ => by rw [h.ata]⟩

theorem Still.trans_writesAt {s s' s'' : Sys} {pos n : Nat} (h : Still s s')
    (h' : WritesAt pos n s' s'') : WritesAt pos n s s'' :=
  ⟨h'.disks.trans h.disks, fun st hst => h'.streams st (h.streams st hst),
    by rw [h'.sectors, h.ata], fun x hx => by rw [h'.image x hx, h.ata]⟩

/-- **A write puts back what it has read around its own bytes.** -/
theorem diskStreamWrite_writesAt {stream buffer n : Nat} {s s' : Sys} {code : Int}
    (hd : (s.streams stream).disk = primaryDisk)
    (h : diskStreamWrite stream buffer n s = .ok code s') :
    WritesAt (s.streams stream).pos n s s' := by
  by_cases h0 : n = 0
  · unfold diskStreamWrite at h
    rw [if_pos h0] at h
    obtain ⟨-, rfl⟩ := (pure_ok_iff _ _ _ _).mp h
    exact (refl_of Still s).writesAt _ _
  obtain ⟨p, a1, -, ⟨-, -, a2, -, rfl⟩ | ⟨-, -, -, a2, -, rfl⟩⟩ := (diskStreamWrite_ok_iff h0 hd).mp h
  · exact ⟨rfl, fun _ hst => hst, rfl, fun _ _ => rfl⟩
  · refine ⟨rfl, fun st hst => ?_, rfl, fun x hx => ?_⟩
    · dsimp only
      by_cases hne : st = stream
      · rw [hne, Function.update_self]
        exact hd
      · rwa [Function.update_of_ne hne]
    · dsimp only
      by_cases hin : 512 * ((s.streams stream).pos / 512) ≤ x ∧
          x < 512 * ((s.streams stream).pos / 512) + 512 * (diskStreamGetAffectedSectors n % 256)
      · -- the byte is one of the sectors', and is not copied over in the local buffer
        obtain ⟨k, rfl⟩ := Nat.exists_eq_add_of_le hin.1
        rw [blit_add (by rw [length_slice]; omega), getElem_slice, writeMem, copyToLocal_eq,
          copyLoop_of_not_mem (by omega), blit_add (by rw [length_slice]; omega), getElem_slice]
      · exact blit_of_not_mem (by rw [length_slice]; omega)

end

/-! ## 5. Writing to a file that has a cluster -/

section

variable {s s' : Sys} {p : FatPrivate} {data : FatFileDescriptor} {stream input n pos : Nat}

/-- The state behind a seek. -/
def seekTo (s : Sys) (stream pos : Nat) : Sys :=
  { s with streams := Function.update s.streams stream { s.streams stream with pos } }

theorem diskStreamSeek_run (s : Sys) (stream pos : Nat) :
    diskStreamSeek stream pos s = .ok ok (seekTo s stream pos) := rfl

@[simp] theorem seekTo_pos : ((seekTo s stream pos).streams stream).pos = pos := by
  unfold seekTo
  dsimp only
  rw [Function.update_self]

theorem still_seekTo (s : Sys) (stream pos : Nat) : Still s (seekTo s stream pos) :=
  still_diskStreamSeek _ _ _ _ _ (diskStreamSeek_run s stream pos)

/-- **A write to a file that has a cluster** is one request to the stream, at the first cluster. -/
theorem fat16Write_later_iff (hm : Mounted s p) (hfile : data.item.type = .file)
    (hcluster : data.item.item.low16BitsFirstCluster ≠ 0) {r : Int × FatFileDescriptor} :
    fat16Write primaryDisk input data n s = .ok r s' ↔
      ∃ code, diskStreamWrite p.clusterReadStream input n (seekTo s p.clusterReadStream
          (clusterPos p data.item.item.low16BitsFirstCluster)) = .ok code s' ∧
        r = (if code ≠ ok then diskFailToWriteStream else ok, data) := by
  have hitem : (pure data.item : SysM FatItem) s = .ok data.item s := rfl
  unfold fat16Write
  rw [if_neg (not_not.mpr hfile), bind_of_ok (diskOf_run s), bind_of_ok hm.fsPrivate_run, if_neg hcluster,
    bind_of_ok hitem]
  dsimp only
  rw [hm.clusterPos_eq, bind_of_ok (diskStreamSeek_run s _ _), bind_ok_iff]
  constructor
  · rintro ⟨code, s2, hw, h⟩
    refine ⟨code, ?_⟩
    split at h
    · next hne =>
      obtain ⟨rfl, rfl⟩ := (pure_ok_iff _ _ _ _).mp h
      exact ⟨hw, by rw [if_pos hne]⟩
    · next heq =>
      obtain ⟨rfl, rfl⟩ := (pure_ok_iff _ _ _ _).mp h
      exact ⟨hw, by rw [if_neg heq]⟩
  · rintro ⟨code, hw, rfl⟩
    refine ⟨code, s', hw, ?_⟩
    split
    · rfl
    · rfl

/-- A write to a file that has a cluster writes at that cluster, and nowhere else. -/
theorem fat16Write_later (hm : Mounted s p) (hfile : data.item.type = .file)
    (hcluster : data.item.item.low16BitsFirstCluster ≠ 0) {r : Int × FatFileDescriptor}
    (h : fat16Write primaryDisk input data n s = .ok r s') :
    WritesAt (clusterPos p data.item.item.low16BitsFirstCluster) n s s' := by
  obtain ⟨code, hw, -⟩ := (fat16Write_later_iff hm hfile hcluster).mp h
  have hstill := still_seekTo s p.clusterReadStream
    (clusterPos p data.item.item.low16BitsFirstCluster)
  have h1 := diskStreamWrite_writesAt (hstill.streams _ hm.clusterStream) hw
  rw [seekTo_pos] at h1
  exact hstill.trans_writesAt h1

end

end KokoOs
