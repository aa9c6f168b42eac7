/-
# Where a read looks for its bytes

`fat16_read_internal_from_stream` goes from cluster to cluster.  What it asks the stream for is
recorded in a copy of it that keeps a log (`fat16ReadLogged`), of which the function is what remains
when the log is dropped (`logged_erases`).

* **The frame.**  Whatever the call returns, it has touched no memory but the caller's bytes and a
  local of its own (`Transfers`).
* **The requests.**  The log is a function of the volume and the arguments alone (`readRequests`): one
  request in the cluster that the walk comes to, up to the end of that cluster, and then those of the
  bytes behind it.  A call that returns has made these requests (`readLogged_runs`), by induction on the
  bytes that are left; `readInternal_step` says in which case the first one is served.
* **The walk.**  A walk that fails gives its status, and the status is taken for the number of a cluster
  (`walkCluster`).
* **The bytes.**  Those that are delivered are those that the requests look for, as far as these lie
  in the sectors that are asked for (`readInternal_bytes`).

So whether a read delivers the bytes of a file is a question about numbers, which the two files that
follow this one answer.
-/
import KokoOs.Fat16Chain
import KokoOs.Fat16Still

namespace KokoOs

open Bytes Prog

/-! ## 1. Frames of reads -/

/-- What reading has done to the state: it has changed memory in `W` and in free blocks only, and
has not written to the device. -/
structure Transfers (W : Set Nat) (s s' : Sys) : Prop where
  kernel : KernelHeap s'.arena
  frame : Frame W s.arena s'.arena
  still : Still s s'

section

variable {W W' : Set Nat} {s s' s'' : Sys} {p : FatPrivate}

theorem Transfers.refl (hk : KernelHeap s.arena) (W : Set Nat) : Transfers W s s :=
  ⟨hk, Frame.refl W s.arena, refl_of Still s⟩

theorem Transfers.trans (h : Transfers W s s') (h' : Transfers W s' s'') : Transfers W s s'' :=
  ⟨h'.kernel, h.frame.trans h'.frame, trans_of Still h.still h'.still⟩

theorem Transfers.mono (h : Transfers W s s') (hW : W ⊆ W') : Transfers W' s s' :=
  ⟨h.kernel, h.frame.mono hW, h.still⟩

theorem Still.mounted (h : Still s s') (hm : Mounted s p) : Mounted s' p :=
  hm.congr h.disks h.streams

theorem Transfers.mounted (h : Transfers W s s') (hm : Mounted s p) : Mounted s' p :=
  h.still.mounted hm

theorem Transfers.image (h : Transfers W s s') : s'.ata.image = s.ata.image :=
  congrArg Ata.image h.still.ata

/-- The caller's bytes stay the caller's. -/
theorem Transfers.owned (h : Transfers W s s') {buffer n : Nat} (ho : Owned s.arena buffer n) :
    Owned s'.arena buffer n :=
  fun i hi hfree => ho i hi (h.frame.inFree hfree)

/-- Bytes of the caller that are not read into keep their values. -/
theorem Transfers.mem (h : Transfers W s s') {buffer n : Nat} (ho : Owned s.arena buffer n) {i : Nat}
    (hi : i < n) (hW : buffer + i ∉ W) : s'.arena.mem (buffer + i) = s.arena.mem (buffer + i) :=
  h.frame.mem _ (ho i hi) hW

variable {stream buffer n : Nat}

theorem diskStreamSeek_transfers (hk : KernelHeap s.arena) (pos : Nat) :
    Runs (fun _ => True) (diskStreamSeek stream pos) s fun code s' => code = ok ∧
      Transfers ∅ s s' ∧ s'.arena = s.arena ∧ (s'.streams stream).pos = pos := by
  refine Runs.of_returns fun code s' h => ?_
  obtain ⟨rfl, hr, harena, hpos⟩ := Runs.value (diskStreamSeek_runs hk pos) h
  refine ⟨rfl, ⟨hr.kernel, ?_, still_diskStreamSeek stream pos _ _ _ h⟩, harena, hpos⟩
  rw [harena]
  exact Frame.refl ∅ s.arena

/-- What a read of `n` bytes at `pos` has delivered: the bytes of the disk, as far as they lie in the
sectors that were asked for. -/
def Delivered (image m : Mem) (pos buffer n : Nat) : Prop := ∀ i < n,
  pos % 512 + i < 512 * diskStreamGetAffectedSectors n → m (buffer + i) = image (pos + i)

/-- **A read of a stream.**  It is refused if it is of no bytes; a read of fewer than 256 sectors is
not refused otherwise. -/
theorem diskStreamRead_transfers (hk : KernelHeap s.arena)
    (hd : (s.streams stream).disk = primaryDisk) (hn : n ≤ 130560) :
    Runs (fun _ => True) (diskStreamRead stream buffer n) s fun code s' =>
      (code = ok ↔ n ≠ 0) ∧ Transfers (Set.Ico buffer (buffer + n)) s s' ∧
      (Owned s.arena buffer n →
        Delivered s.ata.image s'.arena.mem (s.streams stream).pos buffer n) := by
  refine Runs.of_returns fun code s' h => ?_
  have hstill := still_diskStreamRead stream buffer n _ _ _ h
  by_cases h0 : n = 0
  · unfold diskStreamRead at h
    rw [if_pos h0] at h
    obtain ⟨rfl, rfl⟩ := (pure_ok_iff _ _ _ _).mp h
    exact ⟨iff_of_false (by decide) (not_not.mpr h0), Transfers.refl hk _,
      fun _ i hi => absurd hi (by omega)⟩
  · obtain ⟨hk', -, -, ⟨hc, -⟩ | ⟨hc, rfl, -, hf, hbytes⟩⟩ :=
      diskStreamRead_spec hk hd h0 (by omega) h
    · rw [affectedSectors_eq] at hc
      omega
    · refine ⟨iff_of_true rfl h0, ⟨hk', hf, hstill⟩, fun ho i hi hin => hbytes ho i hi ?_⟩
      rw [affectedSectors_eq] at hin ⊢
      omega

/-- Reading an entry of the table. -/
theorem getFatEntry_transfers (hk : KernelHeap s.arena) (hm : Mounted s p) (cluster : Nat) :
    Runs (fun _ => True) (fat16GetFatEntry primaryDisk cluster) s fun e s' =>
      e = (fatWord s.ata.image p.header cluster : Int) ∧ Transfers stackRange s s' := by
  refine Runs.of_returns fun e s' h => ?_
  obtain ⟨rfl, -⟩ := Runs.value (getFatEntry_runs hk hm cluster fun _ _ => trivial) h
  refine ⟨rfl, ?_⟩
  refine Runs.value (Q := fun _ s' => Transfers stackRange s s') ?_ h
  unfold fat16GetFatEntry
  refine Runs.bind (hm.fsPrivate_runs (Q := fun q s' => q = p ∧ s' = s) ⟨rfl, rfl⟩) ?_
  rintro q s' ⟨rfl, rfl⟩
  dsimp only
  rw [if_neg hm.fatStream.1]
  refine Runs.bind (diskStreamSeek_transfers hk _) ?_
  rintro code s1 ⟨rfl, h1, -, -⟩
  rw [if_neg (by simp)]
  refine Runs.bind (diskStreamRead_transfers h1.kernel (h1.still.streams _ hm.fatStream.2)
    (by omega)) ?_
  rintro code s2 ⟨-, h2, -⟩
  have h12 : Transfers stackRange s' s2 := (h1.mono (Set.empty_subset _)).trans
    (h2.mono (Set.Ico_subset_Ico_right (by omega)))
  split
  · exact Runs.pure h12
  · exact Runs.get_bind (Runs.pure h12)

/-! ## 2. Walks -/

/-- The cluster `k` links behind `c`, as the driver goes, unless it finds an invalid entry before. -/
def walkWords (image : Mem) (header : FatHeader) : Nat → Nat → Option Nat
  | 0, c => some c
  | k + 1, c =>
    if fat16IsEntryInvalid (fatWord image header c) then none
    else walkWords image header k (fatWord image header c)

/-- A walk is one part after the other. -/
theorem walkWords_add (image : Mem) (header : FatHeader) (a b c : Nat) :
    walkWords image header (a + b) c = (walkWords image header a c).bind
      (walkWords image header b) := by
  induction a generalizing c with
  | zero =>
    rw [Nat.zero_add]
    rfl
  | succ a ih =>
    rw [Nat.succ_add, walkWords, walkWords]
    split
    · rfl
    · exact ih _

/-- The clusters that a walk comes to have 16 bits. -/
theorem walkWords_lt {image : Mem} {header : FatHeader} {k c c' : Nat} (hc : c < 2 ^ 16)
    (h : walkWords image header k c = some c') : c' < 2 ^ 16 := by
  induction k generalizing c with
  | zero => exact Option.some.inj h ▸ hc
  | succ k ih =>
    rw [walkWords] at h
    split at h
    · cases h
    · exact ih (u16_lt _ _) h

/-- The cluster from which the driver goes on reading.  The status of a walk that fails is taken for
the number of a cluster. -/
def walkCluster (image : Mem) (header : FatHeader) (k c : Nat) : Nat :=
  (walkWords image header k c).getD (toUnsigned systemFail)

@[simp] theorem walkCluster_zero (image : Mem) (header : FatHeader) (c : Nat) :
    walkCluster image header 0 c = c := rfl

theorem walkCluster_lt {image : Mem} {header : FatHeader} {k c : Nat} (hc : c < 2 ^ 32) :
    walkCluster image header k c < 2 ^ 32 := by
  unfold walkCluster
  cases k with
  | zero => exact hc
  | succ k =>
    rw [walkWords]
    split
    · decide
    · cases h : walkWords image header k (fatWord image header c) with
      | none => exact (by decide : toUnsigned systemFail < 2 ^ 32)
      | some c' =>
        have := walkWords_lt (u16_lt _ _) h
        change c' < 2 ^ 32
        omega

theorem walkClusters_transfers {k c : Nat} (hk : KernelHeap s.arena) (hm : Mounted s p)
    (hc : c < 2 ^ 32) :
    Runs (fun _ => True) (fat16WalkClusters primaryDisk k c) s fun r s' =>
      toUnsigned r = walkCluster s.ata.image p.header k c ∧ Transfers stackRange s s' := by
  induction k generalizing c s with
  | zero => exact Runs.pure ⟨toUnsigned_natCast hc, Transfers.refl hk _⟩
  | succ k ih =>
    unfold fat16WalkClusters walkCluster
    rw [walkWords]
    refine Runs.bind (getFatEntry_transfers hk hm c) ?_
    rintro e s1 ⟨rfl, h1⟩
    have hlt : fatWord s.ata.image p.header c < 2 ^ 16 := u16_lt _ _
    split
    · exact Runs.pure ⟨rfl, h1⟩
    · rw [toUnsigned_natCast (by omega)]
      refine (ih h1.kernel (h1.mounted hm) (by omega)).mono ?_
      rintro r s2 ⟨hr, h2⟩
      rw [h1.image] at hr
      exact ⟨hr, h1.trans h2⟩

theorem getClusterForOffset_transfers {c offset : Nat} (hk : KernelHeap s.arena) (hm : Mounted s p)
    (hc : c < 2 ^ 32) :
    Runs (fun _ => True) (fat16GetClusterForOffset primaryDisk c offset) s fun r s' =>
      fat16ClusterSize (s.disks primaryDisk) p ≠ 0 ∧
      toUnsigned r = walkCluster s.ata.image p.header
        (offset / fat16ClusterSize (s.disks primaryDisk) p) c ∧ Transfers stackRange s s' := by
  refine Runs.of_returns fun r s' h => ?_
  have hsize := clusterSize_ne_zero hm h
  rw [getClusterForOffset_run hm, if_neg hsize] at h
  exact ⟨hsize, Runs.value (walkClusters_transfers hk hm hc) h⟩

end

/-! ## 3. The requests of a read -/

/-- What a read asks the stream for: `length` bytes from `offset` on in a cluster, into `out`. -/
structure ReadRequest where
  cluster : Nat
  offset : Nat
  length : Nat
  out : Nat
  deriving DecidableEq, Repr

/-- `fat16_read_internal_from_stream`, with a log of what it asks the stream for. -/
def fat16ReadLogged (disk : DiskRef) (stream : Nat) :
    Nat → Nat → Nat → Nat → Nat → SysM (Int × List ReadRequest)
  | 0, _, _, _, _ => throw .hang
  | fuel + 1, cluster, offset, total, out => do
    let res ← fat16GetClusterForOffset disk cluster offset
    let cluster := toUnsigned res
    if cluster < 0 then return (invalidArgument, [])
    else
      let d ← diskOf disk
      let fatPrivate ← fsPrivate disk
      let sizeOfClusterBytes := fat16ClusterSize d fatPrivate
      let offsetFromCluster := offset % sizeOfClusterBytes
      let startSector := fat16ClusterToSector fatPrivate cluster
      let startPos := (fat16SectorToAbsolutePos d startSector + offsetFromCluster) % 2 ^ 32
      let totalToRead := if total > sizeOfClusterBytes then sizeOfClusterBytes else total
      let res ← diskStreamSeek stream startPos
      if res ≠ ok then return (systemFail, [])
      else
        let request := { cluster, offset := offsetFromCluster, length := totalToRead, out }
        let res ← diskStreamRead stream out totalToRead
        if res ≠ ok then return (systemFail, [request])
        else
          let total := total - totalToRead
          if total > 0 then
            let (res, log) ← fat16ReadLogged disk stream fuel cluster
              ((offset + totalToRead) % 2 ^ 32) total ((out + totalToRead) % 2 ^ 32)
            return (res, request :: log)
          else return (ok, [request])

/-- **The log is all that has been added.** -/
theorem logged_erases (disk : DiskRef) (stream fuel cluster offset total out : Nat) :
    (fat16ReadLogged disk stream fuel cluster offset total out >>= fun r => pure r.1) =
      fat16ReadInternalFromStream disk stream fuel cluster offset total out := by
  induction fuel generalizing cluster offset total out with
  | zero => rfl
  | succ fuel ih =>
    rw [fat16ReadLogged, fat16ReadInternalFromStream]
    simp only [bind_assoc]
    refine bind_congr fun res => ?_
    split
    · rfl
    · simp only [bind_assoc]
      refine bind_congr fun d => bind_congr fun q => ?_
      generalize (if total > fat16ClusterSize d q then fat16ClusterSize d q else total) = length
      refine bind_congr fun res => ?_
      split
      · rfl
      · simp only [bind_assoc]
        refine bind_congr fun res => ?_
        split
        · rfl
        · split
          · simp only [bind_assoc]
            exact ih _ _ _ _
          · rfl

/-- Every call that returns has a log. -/
theorem read_ok_iff {disk : DiskRef} {stream fuel cluster offset total out : Nat} {s s' : Sys}
    {code : Int} :
    fat16ReadInternalFromStream disk stream fuel cluster offset total out s = .ok code s' ↔
      ∃ log, fat16ReadLogged disk stream fuel cluster offset total out s = .ok (code, log) s' := by
  rw [← logged_erases, bind_ok_iff]
  constructor
  · rintro ⟨⟨code', log⟩, s1, hlog, h⟩
    obtain ⟨rfl, rfl⟩ := (pure_ok_iff _ _ _ _).mp h
    exact ⟨log, hlog⟩
  · rintro ⟨log, hlog⟩
    exact ⟨(code, log), s', hlog, rfl⟩

/-- The requests of a read, from the words of the table alone. -/
def readRequests (image : Mem) (header : FatHeader) (clusterSize : Nat) :
    Nat → Nat → Nat → Nat → Nat → List ReadRequest
  | 0, _, _, _, _ => []
  | fuel + 1, cluster, offset, total, out =>
    let cluster := walkCluster image header (offset / clusterSize) cluster
    let length := min total clusterSize
    { cluster, offset := offset % clusterSize, length, out } ::
      if total - length > 0 then
        readRequests image header clusterSize fuel cluster ((offset + length) % 2 ^ 32)
          (total - length) ((out + length) % 2 ^ 32)
      else []

/-- Where the bytes of a request begin on the disk. -/
def ReadRequest.pos (p : FatPrivate) (q : ReadRequest) : Nat :=
  (clusterPos p q.cluster + q.offset) % 2 ^ 32

/-- What a read may write to: its local, and the bytes of the caller. -/
def readRange (out total : Nat) : Set Nat := stackRange ∪ Set.Ico out (out + total)

/-- `total` bytes of the caller from `out` on: no block of them is free, the driver's local is
somewhere else, and the addresses do not wrap around. -/
structure CallersBytes (a : Arena) (out total : Nat) : Prop where
  owned : Owned a out total
  off : ∀ x ∈ Set.Ico out (out + total), x ∉ stackRange
  fits : out + total ≤ 2 ^ 32

theorem readRange_mono {out out' total total' : Nat} (hlo : out ≤ out')
    (hhi : out' + total' ≤ out + total) : readRange out' total' ⊆ readRange out total :=
  Set.union_subset_union_right _ (Set.Ico_subset_Ico hlo hhi)

section

variable {s s' : Sys} {p : FatPrivate} {stream : Nat}

theorem CallersBytes.reads {W : Set Nat} {out total : Nat} (h : CallersBytes s.arena out total)
    (ht : Transfers W s s') : CallersBytes s'.arena out total :=
  ⟨ht.owned h.owned, h.off, h.fits⟩

/-- A part of the caller's bytes. -/
theorem CallersBytes.part {a : Arena} {out total : Nat} (h : CallersBytes a out total) {k n : Nat}
    (hkn : k + n ≤ total) : CallersBytes a (out + k) n := by
  have hfits := h.fits
  refine ⟨fun i hi => ?_, fun x hx => h.off x ?_, by omega⟩
  · rw [Nat.add_assoc]
    exact h.owned (k + i) (by omega)
  · have hx' := Set.mem_Ico.mp hx
    exact Set.mem_Ico.mpr ⟨by omega, by omega⟩

/-- What a read that has returned has done. -/
structure ReadDone (s : Sys) (p : FatPrivate) (fuel cluster offset total out : Nat)
    (r : Int × List ReadRequest) (s' : Sys) : Prop where
  size : fat16ClusterSize (s.disks primaryDisk) p ≠ 0
  code : r.1 = ok ↔ total ≠ 0
  log : r.2 = readRequests s.ata.image p.header (fat16ClusterSize (s.disks primaryDisk) p) fuel
    cluster offset total out
  transfers : Transfers Set.univ s s'
  within : out + total ≤ 2 ^ 32 → Transfers (readRange out total) s s'
  delivered : CallersBytes s.arena out total → ∀ q ∈ r.2,
    Delivered s.ata.image s'.arena.mem (q.pos p) q.out q.length

theorem clusterSize_le (hm : Mounted s p) (hspc : p.header.sectorsPerCluster < 256) :
    fat16ClusterSize (s.disks primaryDisk) p ≤ 130560 := by
  rw [hm.clusterSize]
  omega

/-- What one request of a read has done, which began in `s` with `length` bytes for `out`. -/
structure RequestDone (s : Sys) (p : FatPrivate) (total length out : Nat) (request : ReadRequest)
    (s' : Sys) : Prop where
  place : request.out = out ∧ request.length = length
  transfers : Transfers (readRange out length) s s'
  delivered : CallersBytes s.arena out total →
    Delivered s.ata.image s'.arena.mem (request.pos p) request.out request.length

/-- A read may end with its first request. -/
theorem RequestDone.last {fuel cluster offset total out C : Nat} {request : ReadRequest} {code : Int}
    (h : RequestDone s p total (min total C) out request s')
    (hC : fat16ClusterSize (s.disks primaryDisk) p = C) (hsize : C ≠ 0) (hcode : code = ok ↔ total ≠ 0)
    (hlog : readRequests s.ata.image p.header C fuel cluster offset total out = [request]) :
    ReadDone s p fuel cluster offset total out (code, [request]) s' where
  size := hC ▸ hsize
  code := hcode
  log := by rw [hC, hlog]
  transfers := h.transfers.mono (Set.subset_univ _)
  within _ := h.transfers.mono (readRange_mono (Nat.le_refl out) (by omega))
  delivered hown r hr := List.mem_singleton.mp hr ▸ h.delivered hown

/-- A read may go on with the bytes behind its first request. -/
theorem RequestDone.cons {fuel cluster cluster' offset total out C : Nat} {request : ReadRequest}
    {code : Int} {log : List ReadRequest} {s1 : Sys}
    (h : RequestDone s p total (min total C) out request s1)
    (hC : fat16ClusterSize (s.disks primaryDisk) p = C) (hsize : C ≠ 0) (hrest : total - min total C > 0)
    (hlog : readRequests s.ata.image p.header C (fuel + 1) cluster offset total out =
      request :: readRequests s.ata.image p.header C fuel cluster' ((offset + min total C) % 2 ^ 32)
        (total - min total C) ((out + min total C) % 2 ^ 32))
    (hdone : ReadDone s1 p fuel cluster' ((offset + min total C) % 2 ^ 32) (total - min total C)
      ((out + min total C) % 2 ^ 32) (code, log) s') :
    ReadDone s p (fuel + 1) cluster offset total out (code, request :: log) s' := by
  have ht := h.transfers
  have hfits : out + total ≤ 2 ^ 32 → (out + min total C) % 2 ^ 32 = out + min total C :=
    fun h => Nat.mod_eq_of_lt (by omega)
  have hrest1 : CallersBytes s.arena out total →
      CallersBytes s1.arena ((out + min total C) % 2 ^ 32) (total - min total C) := by
    intro hown
    rw [hfits hown.fits]
    exact (hown.reads ht).part (by omega)
  have hwithin : out + total ≤ 2 ^ 32 →
      Transfers (readRange (out + min total C) (total - min total C)) s1 s' := by
    intro h0
    have h1 := hdone.within
    rw [hfits h0] at h1
    exact h1 (by omega)
  refine ⟨hC ▸ hsize, iff_of_true (hdone.code.mpr (by omega)) (by omega), ?_,
    (ht.mono (Set.subset_univ _)).trans hdone.transfers, fun h0 => ?_, fun hown r hr => ?_⟩
  · have hlog1 := hdone.log
    rw [ht.still.disks, ht.image, hC] at hlog1
    rw [hC, hlog, ← hlog1]
  · exact (ht.mono (readRange_mono (Nat.le_refl out) (by omega))).trans
      ((hwithin h0).mono (readRange_mono (by omega) (by omega)))
  · rcases List.mem_cons.mp hr with rfl | hr
    · -- the requests that follow are for bytes behind those of this one
      obtain ⟨hout, hlength⟩ := h.place
      intro i hi hin
      rw [hlength] at hi
      rw [hout, (hwithin hown.fits).mem (hown.reads ht).owned (by omega), ← hout]
      · exact h.delivered hown i (by omega) hin
      · rintro (hstack | hlater)
        · exact hown.off _ (Set.mem_Ico.mpr ⟨by omega, by omega⟩) hstack
        · have hlater' := Set.mem_Ico.mp hlater
          omega
    · have h1 := hdone.delivered (hrest1 hown) r hr
      rwa [ht.image] at h1

/-- **A read that returns** has asked for what the table says, one request after the other, and is
refused only if it is of no bytes. -/
theorem readLogged_runs (hspc : p.header.sectorsPerCluster < 256) :
    ∀ {fuel cluster offset total out : Nat} {s : Sys}, KernelHeap s.arena → Mounted s p →
    (s.streams stream).disk = primaryDisk → cluster < 2 ^ 32 →
    Runs (fun _ => True) (fat16ReadLogged primaryDisk stream fuel cluster offset total out) s
      (ReadDone s p fuel cluster offset total out)
  | 0, _, _, _, _, _, _, _, _, _ => Runs.throw trivial
  | fuel + 1, cluster, offset, total, out, s, hk, hm, hd, hc => by
    unfold fat16ReadLogged
    refine Runs.bind (getClusterForOffset_transfers hk hm hc) ?_
    rintro res s1 ⟨hsize, hres, h1⟩
    have hlt : toUnsigned res < 2 ^ 32 := by rw [hres]; exact walkCluster_lt hc
    have hm1 := h1.mounted hm
    rw [if_neg (Nat.not_lt_zero _)]
    refine Runs.bind (diskOf_runs (Q := fun d s' => d = s1.disks primaryDisk ∧ s' = s1)
      ⟨rfl, rfl⟩) ?_
    rintro d s1 ⟨rfl, rfl⟩
    refine Runs.bind (hm1.fsPrivate_runs (Q := fun q s' => p = q ∧ s' = s1) ⟨rfl, rfl⟩) ?_
    rintro q s1 ⟨rfl, rfl⟩
    dsimp only
    rw [h1.still.disks]
    have hcluster := clusterSize_le hm hspc
    have hpos : (fat16SectorToAbsolutePos (s.disks primaryDisk) (fat16ClusterToSector p
        (toUnsigned res)) + offset % fat16ClusterSize (s.disks primaryDisk) p) % 2 ^ 32 =
        (ReadRequest.mk (toUnsigned res) (offset % fat16ClusterSize (s.disks primaryDisk) p)
          (min total (fat16ClusterSize (s.disks primaryDisk) p)) out).pos p := by
      unfold ReadRequest.pos
      rw [hm.clusterPos_eq]
    have hlength : (if total > fat16ClusterSize (s.disks primaryDisk) p then
        fat16ClusterSize (s.disks primaryDisk) p else total) =
        min total (fat16ClusterSize (s.disks primaryDisk) p) := by
      split <;> omega
    rw [hlength, hpos]
    generalize hC : fat16ClusterSize (s.disks primaryDisk) p = C at hsize hres hcluster ⊢
    generalize hq : ReadRequest.mk (toUnsigned res) (offset % C) (min total C) out = request
    refine Runs.bind (diskStreamSeek_transfers h1.kernel _) ?_
    rintro code s2 ⟨rfl, h2, harena2, hpos2⟩
    rw [if_neg (by simp)]
    refine Runs.bind (diskStreamRead_transfers h2.kernel
      (h2.still.streams _ (h1.still.streams _ hd)) (by omega)) ?_
    rintro code s3 ⟨hcode, h3, hbytes⟩
    have h12 := h1.trans (h2.mono (Set.empty_subset _))
    have h13 : Transfers (readRange out (min total C)) s s3 :=
      (h12.mono Set.subset_union_left).trans (h3.mono Set.subset_union_right)
    rw [hpos2, h12.image] at hbytes
    have hlog : readRequests s.ata.image p.header C (fuel + 1) cluster offset total out =
        request :: if total - min total C > 0 then
          readRequests s.ata.image p.header C fuel (toUnsigned res) ((offset + min total C) % 2 ^ 32)
            (total - min total C) ((out + min total C) % 2 ^ 32)
        else [] := by
      rw [readRequests, ← hres, hq]
    have hplace : request.out = out ∧ request.length = min total C := hq ▸ ⟨rfl, rfl⟩
    have hone : RequestDone s p total (min total C) out request s3 := by
      refine ⟨hplace, h13, fun hown => ?_⟩
      rw [hplace.1, hplace.2]
      exact hbytes ((hown.reads h12).part (k := 0) (by omega)).owned
    by_cases hne : code = ok
    · rw [if_neg (not_not.mpr hne)]
      split
      · next hrest =>
        rw [if_pos hrest] at hlog
        refine Runs.bind (readLogged_runs hspc h13.kernel (h13.mounted hm)
          (h13.still.streams _ hd) hlt) ?_
        rintro ⟨code', log⟩ s4 h4
        exact Runs.pure (hone.cons hC hsize hrest hlog h4)
      · next hrest =>
        rw [if_neg hrest] at hlog
        have htotal := hcode.mp hne
        exact Runs.pure (hone.last hC hsize (iff_of_true rfl (by omega)) hlog)
    · rw [if_pos hne]
      have h0 : min total C = 0 := by
        by_contra h0
        exact hne (hcode.mpr h0)
      rw [if_neg (by omega)] at hlog
      exact Runs.pure (hone.last hC hsize (iff_of_false (by decide) (by omega)) hlog)

/-- **A read begins with one request** to the stream, in the cluster that it comes to, and goes on from
there. -/
theorem readInternal_step {cluster offset total out c : Nat} (fuel : Nat) (hm : Mounted s p)
    (hwalk : fat16GetClusterForOffset primaryDisk cluster offset s = .ok (c : Int) s')
    (hm' : Mounted s' p) (hc : c < 2 ^ 32) {C : Nat} (hC : fat16ClusterSize (s.disks primaryDisk) p = C) :
    fat16ReadInternalFromStream primaryDisk stream (fuel + 1) cluster offset total out s =
      (do
        let res ← diskStreamRead stream out (min total C)
        if res ≠ ok then return systemFail
        else if total - min total C > 0 then
          fat16ReadInternalFromStream primaryDisk stream fuel c ((offset + min total C) % 2 ^ 32)
            (total - min total C) ((out + min total C) % 2 ^ 32)
        else return ok)
      (seekTo s' stream ((clusterPos p c + offset % C) % 2 ^ 32)) := by
  have hC' : fat16ClusterSize (s'.disks primaryDisk) p = C := by
    rw [hm'.clusterSize, ← hm.clusterSize, hC]
  have hmin : (if total > C then C else total) = min total C := by
    split <;> omega
  rw [fat16ReadInternalFromStream, bind_of_ok hwalk, toUnsigned_natCast hc, if_neg (Nat.not_lt_zero _),
    bind_of_ok (diskOf_run s'), bind_of_ok hm'.fsPrivate_run]
  dsimp only
  rw [hC', hm'.clusterPos_eq, hmin, bind_of_ok (diskStreamSeek_run s' _ _), if_neg (by simp)]

/-- **A read that stays in the first cluster** is one request to the stream. -/
theorem readInternal_one {cluster offset total out : Nat} (fuel : Nat) (hm : Mounted s p)
    (hc : cluster < 2 ^ 32) (hoff : offset < fat16ClusterSize (s.disks primaryDisk) p)
    (hsize : total ≤ fat16ClusterSize (s.disks primaryDisk) p) :
    fat16ReadInternalFromStream primaryDisk stream (fuel + 1) cluster offset total out s =
      (do
        let res ← diskStreamRead stream out total
        return if res ≠ ok then systemFail else ok)
      (seekTo s stream ((clusterPos p cluster + offset) % 2 ^ 32)) := by
  have hne : fat16ClusterSize (s.disks primaryDisk) p ≠ 0 := by omega
  have hwalk : fat16GetClusterForOffset primaryDisk cluster offset s = .ok (cluster : Int) s := by
    rw [getClusterForOffset_run hm, if_neg hne, Nat.div_eq_of_lt hoff]
    rfl
  rw [readInternal_step fuel hm hwalk hm hc rfl, Nat.min_eq_left hsize, Nat.mod_eq_of_lt hoff,
    Nat.sub_self, if_neg (Nat.lt_irrefl 0)]
  refine congrFun (bind_congr fun res => ?_) _
  split
  · rfl
  · rfl

/-- If it is of at most a sector it returns `OK`, as long as there is a free block for the sector and
the device has it. -/
theorem readInternal_sector {cluster offset total out : Nat} (fuel : Nat) (hk : KernelHeap s.arena)
    (hm : Mounted s p) (hd : (s.streams stream).disk = primaryDisk) (hc : cluster < 2 ^ 32)
    (hoff : offset < fat16ClusterSize (s.disks primaryDisk) p) (h0 : 0 < total) (hn : total ≤ 512)
    (hsize : total ≤ fat16ClusterSize (s.disks primaryDisk) p)
    (hfree : (freeBlocks s.arena.heap).card ≠ 0)
    (hin : (clusterPos p cluster + offset) % 2 ^ 32 / 512 < s.ata.sectors) :
    ∃ s', diskStreamRead stream out total (seekTo s stream ((clusterPos p cluster + offset) % 2 ^ 32)) =
        .ok ok s' ∧
      fat16ReadInternalFromStream primaryDisk stream (fuel + 1) cluster offset total out s =
        .ok ok s' := by
  have hstill := still_seekTo s stream ((clusterPos p cluster + offset) % 2 ^ 32)
  obtain ⟨code, s', hrun, rfl, -⟩ : ∃ code s', diskStreamRead stream out total (seekTo s stream
      ((clusterPos p cluster + offset) % 2 ^ 32)) = .ok code s' ∧ code = ok ∧ _ :=
    Runs.total (diskStreamRead_sector hk (hstill.streams _ hd) h0 hn fun hbad => by
      rw [seekTo_pos] at hbad
      exact absurd (hbad.resolve_left hfree) (Nat.not_lt.mpr hin))
  refine ⟨s', hrun, ?_⟩
  rw [readInternal_one fuel hm hc hoff hsize, bind_of_ok hrun]
  rfl

end

/-! ## 4. The bytes of a read -/

/-- The cluster of request `j`. -/
def clusterOf (image : Mem) (header : FatHeader) (clusterSize : Nat) : Nat → Nat → Nat → Nat
  | c, offset, 0 => walkCluster image header (offset / clusterSize) c
  | c, offset, j + 1 =>
    clusterOf image header clusterSize (walkCluster image header (offset / clusterSize) c)
      ((offset + clusterSize) % 2 ^ 32) j

section

variable {image : Mem} {header : FatHeader} {C c offset total out j : Nat}

/-- The offset of the request behind the first one, and where its bytes go. -/
theorem offset_succ (offset C j : Nat) :
    ((offset + C) % 2 ^ 32 + j * C) % 2 ^ 32 = (offset + (j + 1) * C) % 2 ^ 32 := by
  rw [Nat.succ_mul, Nat.mod_add_mod]
  congr 1
  omega

/-- Request `j` of a read. -/
theorem mem_readRequests {fuel : Nat} (hC : 0 < C) (hfuel : total ≤ fuel) (hoff : offset < 2 ^ 32)
    (hout : out + total ≤ 2 ^ 32) (hj : j * C < total) :
    ReadRequest.mk (clusterOf image header C c offset j) ((offset + j * C) % 2 ^ 32 % C)
      (min (total - j * C) C) (out + j * C) ∈
      readRequests image header C fuel c offset total out := by
  induction fuel generalizing c offset total out j with
  | zero => omega
  | succ fuel ih =>
    rw [readRequests]
    cases j with
    | zero =>
      rw [Nat.zero_mul, Nat.add_zero, Nat.add_zero, Nat.sub_zero, Nat.mod_eq_of_lt hoff]
      exact List.mem_cons_self
    | succ j =>
      rw [Nat.succ_mul] at hj
      have hmin : min total C = C := by omega
      have hle : total - C ≤ fuel := by omega
      have hfits : out + C + (total - C) ≤ 2 ^ 32 := by omega
      have hout : out + C < 2 ^ 32 := by omega
      have hmem := ih (c := walkCluster image header (offset / C) c) (j := j) hle
        (Nat.mod_lt (offset + C) (by omega : 0 < 2 ^ 32)) hfits (by omega)
      rw [hmin, if_pos (by omega), Nat.mod_eq_of_lt hout]
      refine List.mem_cons_of_mem _ ?_
      rw [offset_succ] at hmem
      have hlength : total - (j + 1) * C = total - C - j * C := by
        rw [Nat.succ_mul]
        omega
      have hplace : out + (j + 1) * C = out + C + j * C := by
        rw [Nat.succ_mul]
        omega
      rw [hlength, hplace]
      exact hmem

end

/-- Where request `j` of a read begins on the disk. -/
def requestPos (image : Mem) (p : FatPrivate) (clusterSize c0 offset j : Nat) : Nat :=
  (clusterPos p (clusterOf image p.header clusterSize c0 offset j) +
    (offset + j * clusterSize) % 2 ^ 32 % clusterSize) % 2 ^ 32

/-- Byte `i` of a read lies in the sectors that its request asks for. -/
def InSectors (clusterSize offset total i : Nat) : Prop :=
  offset % 512 + i % clusterSize <
    512 * diskStreamGetAffectedSectors (min (total - i / clusterSize * clusterSize) clusterSize)

section

variable {s s' : Sys} {p : FatPrivate} {cluster offset total out : Nat} {code : Int}

theorem requestPos_mod (image : Mem) {C : Nat} (hC : C % 512 = 0) (hpos : 0 < C) (c0 offset j : Nat) :
    requestPos image p C c0 offset j % 512 = offset % 512 := by
  obtain ⟨k, rfl⟩ := Nat.dvd_of_mod_eq_zero hC
  have hmod : (offset + j * (512 * k)) % 2 ^ 32 % (512 * k) % 512 = offset % 512 := by
    rw [Nat.mod_mod_of_dvd _ (Nat.dvd_mul_right 512 k), Nat.mod_mod_of_dvd _ (by decide),
      Nat.mul_left_comm, Nat.add_mul_mod_self_left]
  unfold requestPos clusterPos
  omega

/-- **The bytes that a read delivers** are those that its requests look for, as far as these lie in the
sectors that are asked for. -/
theorem readInternal_bytes (hk : KernelHeap s.arena) (hm : Mounted s p)
    (hspc : p.header.sectorsPerCluster < 256) (hc : cluster < 2 ^ 32) (hoff : offset < 2 ^ 32)
    (h0 : 0 < total) (hown : CallersBytes s.arena out total)
    (h : fat16ReadInternal primaryDisk cluster offset total out s = .ok code s') :
    code = ok ∧ Transfers (readRange out total) s s' ∧
      0 < fat16ClusterSize (s.disks primaryDisk) p ∧
      ∀ i < total, InSectors (fat16ClusterSize (s.disks primaryDisk) p) offset total i →
        s'.arena.mem (out + i) = s.ata.image (requestPos s.ata.image p
          (fat16ClusterSize (s.disks primaryDisk) p) cluster offset
          (i / fat16ClusterSize (s.disks primaryDisk) p) +
          i % fat16ClusterSize (s.disks primaryDisk) p) := by
  obtain ⟨q, s1, hq, h⟩ := (bind_ok_iff _ _ _ _ _).mp h
  obtain ⟨rfl, rfl⟩ := Runs.value (hm.fsPrivate_runs (Q := fun q s' => p = q ∧ s = s') ⟨rfl, rfl⟩) hq
  obtain ⟨log, hlog⟩ := read_ok_iff.mp h
  have hdone := Runs.value (readLogged_runs hspc hk hm hm.clusterStream hc) hlog
  have hC := Nat.pos_of_ne_zero hdone.size
  refine ⟨hdone.code.mpr (by omega), hdone.within hown.fits, hC, fun i hi hin => ?_⟩
  have hsize : fat16ClusterSize (s.disks primaryDisk) p % 512 = 0 := by
    rw [hm.clusterSize]
    omega
  have hdelivered := hdone.delivered hown
  rw [hdone.log] at hdelivered
  generalize fat16ClusterSize (s.disks primaryDisk) p = C at *
  have hdiv := Nat.div_add_mod i C
  have hlt := Nat.mod_lt i hC
  rw [Nat.mul_comm] at hdiv
  have hchunk : i / C * C < total := by omega
  have hplace : out + i / C * C + i % C = out + i := by omega
  have hbyte := hdelivered _ (mem_readRequests hC (by omega) hoff hown.fits hchunk) (i % C)
    (by dsimp only; omega)
  dsimp only at hbyte
  rw [hplace] at hbyte
  refine hbyte ?_
  have hmod := requestPos_mod (p := p) s.ata.image hsize hC cluster offset (i / C)
  unfold requestPos at hmod
  unfold ReadRequest.pos
  dsimp only
  rw [hmod]
  exact hin

end

end KokoOs
