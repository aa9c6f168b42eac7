/-
# Two descriptors, and calls on them in any order

Reading, seeking and status leave the disk as it is and no descriptor but their own, so what they
answer depends on the disk and the descriptor alone: calls on another descriptor can be taken out of
a run, and its own party sees the same answers (`descriptors_independent`).

* **A call.**  What it answers, what it delivers and what position it leaves are functions of the
  disk and the private data (`ReadOp.result`, `ReadOp.bytes`, `ReadOp.leaves`); `LiveRegular.call`
  and `LiveRegular.delivers` say that the call does come to these.
* **Two runs.**  `Alike` relates the states that one party cannot tell apart.  A call on the other
  descriptor keeps it (`Alike.other_call`), and one on the own is answered alike (`Alike.own_call`); the
  induction is that of `Run.unwinds`.

The exception is a read whose bytes do not lie in the sectors that it asks for: it delivers what
memory holds behind its local buffer, and that depends on what was read there before.  A file that
is open twice shows it, with two bytes at byte 511 (`reads_interfere`).
-/
import KokoOs.FileAlias
import KokoOs.FileRead

namespace KokoOs

open Bytes Prog
open Runs (Run AllSteps)

/-! ## 1. Calls that change no file -/

/-- A call of `fs_read`, `fs_seek` or `fs_stat`, on a descriptor that is given apart. -/
inductive ReadOp where
  | read (out size nmemb : Nat)
  | seek (offset : Nat) (mode : SeekMode)
  | stat

/-- The call on a descriptor. -/
def ReadOp.call (fd : Nat) : ReadOp → FileCall
  | .read out size nmemb => .read out fd size nmemb
  | .seek offset mode => .seek fd offset mode
  | .stat => .stat fd

/-- What the caller sees of a call: the status with what is stored in `*stat`, the bytes that are
delivered, and the position that the descriptor is left at. -/
structure Seen where
  result : Int × Option FileStat
  bytes : List UInt8
  pos : Option Nat

/-- The bytes that a call has delivered. -/
def ReadOp.delivered (m : Mem) : ReadOp → List UInt8
  | .read out size nmemb => slice m out (nmemb * size)
  | _ => []

/-- The position of a descriptor. -/
def posOf (f : FileState FatFileDescriptor) (fd : Nat) : Option Nat :=
  (fsFindFileDescriptor f fd).map fun desc => desc.privateData.pos

/-- A call that returns, with what its caller sees. -/
def Answers (f : FileState FatFileDescriptor) (l : (Nat × ReadOp) × Seen)
    (f' : FileState FatFileDescriptor) : Prop :=
  ∃ r, runCall fileSystemOf (l.1.2.call l.1.1) f = .ok r f' ∧
    l.2 = ⟨r, l.1.2.delivered f'.sys.arena.mem, posOf f' l.1.1⟩

/-- A live descriptor of a regular file. -/
structure LiveRegular (f : FileState FatFileDescriptor) (fd : Nat)
    (desc : FileDescriptor FatFileDescriptor) : Prop where
  found : fsFindFileDescriptor f fd = some desc
  disk : desc.disk = primaryDisk
  file : desc.privateData.item.type = .file
  pos : desc.privateData.pos < 2 ^ 32

/-! ## 2. What a call on a descriptor answers -/

/-- The status, from the private data of the descriptor. -/
def ReadOp.result (data : FatFileDescriptor) : ReadOp → Int × Option FileStat
  | .read _ size nmemb => (if size = 0 ∨ nmemb = 0 then invalidArgument else ok, none)
  | .seek offset mode => ((fat16Seek data offset mode).1, none)
  | .stat => fat16Stat data

/-- The private data that the call leaves. -/
def ReadOp.leaves (data : FatFileDescriptor) : ReadOp → FatFileDescriptor
  | .seek offset mode => (fat16Seek data offset mode).2
  | _ => data

/-- The bytes that the call looks for. -/
def ReadOp.bytes (image : Mem) (p : FatPrivate) (clusterSize : Nat) (data : FatFileDescriptor) :
    ReadOp → List UInt8
  | .read _ size nmemb => readBytes image p clusterSize data size nmemb
  | _ => []

/-- Seeking changes the position only, and keeps it within the file. -/
theorem fat16Seek_leaves (data : FatFileDescriptor) (offset : Nat) (mode : SeekMode) :
    (fat16Seek data offset mode).2.item = data.item ∧
      (data.pos < 2 ^ 32 → (fat16Seek data offset mode).2.pos < 2 ^ 32) := by
  unfold fat16Seek
  split
  · exact ⟨rfl, id⟩
  · split
    · exact ⟨rfl, id⟩
    · next hlt =>
      have hsize : data.item.item.filesize < 2 ^ 32 := u32_lt _ _
      cases mode with
      | set => exact ⟨rfl, fun _ => by dsimp only; omega⟩
      | fromEnd => exact ⟨rfl, id⟩
      | cur =>
        dsimp only
        split
        · exact ⟨rfl, id⟩
        · exact ⟨rfl, fun _ => Nat.mod_lt _ (by omega)⟩
      | other => exact ⟨rfl, id⟩

theorem ReadOp.leaves_item (data : FatFileDescriptor) (op : ReadOp) :
    (op.leaves data).item = data.item := by
  cases op with
  | read => rfl
  | seek offset mode => exact (fat16Seek_leaves data offset mode).1
  | stat => rfl

theorem ReadOp.leaves_pos {data : FatFileDescriptor} (h : data.pos < 2 ^ 32) (op : ReadOp) :
    (op.leaves data).pos < 2 ^ 32 := by
  cases op with
  | read => exact h
  | seek offset mode => exact (fat16Seek_leaves data offset mode).2 h
  | stat => exact h

section

variable {f f' : FileState FatFileDescriptor} {p : FatPrivate} {fd : Nat} {op : ReadOp}
  {desc : FileDescriptor FatFileDescriptor} {r : Int × Option FileStat}

/-- **What a call does to the state**: it has transferred something, and its descriptor has the private
data that it leaves. -/
structure Leaves (f f' : FileState FatFileDescriptor) (fd : Nat)
    (desc : FileDescriptor FatFileDescriptor) (data : FatFileDescriptor) : Prop where
  transfers : Transfers Set.univ f.sys f'.sys
  table : f'.fileDescriptors =
    Function.update f.fileDescriptors (fd - 1) (some { desc with privateData := data })

/-- The loop over the elements keeps the heap, whatever memory it reads into. -/
theorem readLoop_transfers (hspc : p.header.sectorsPerCluster < 256) {item : FatDirectoryItem}
    {size : Nat} : ∀ {nmemb pos out : Nat} {s s' : Sys} {code : Int}, KernelHeap s.arena →
    Mounted s p → fat16ReadLoop primaryDisk item size nmemb pos out s = .ok code s' →
    Transfers Set.univ s s'
  | 0, _, _, s, _, _, hk, _, h => by
    obtain ⟨-, rfl⟩ := (pure_ok_iff _ _ _ _).mp h
    exact Transfers.refl hk _
  | nmemb + 1, pos, out, s, s', _, hk, hm, h => by
    obtain ⟨res, s1, hread, h⟩ := (bind_ok_iff _ _ _ _ _).mp h
    have hcluster := firstCluster_lt item
    have h1 : Transfers Set.univ s s1 := by
      obtain ⟨q, s2, hq, hread⟩ := (bind_ok_iff _ _ _ _ _).mp hread
      obtain ⟨rfl, rfl⟩ := Runs.value
        (hm.fsPrivate_runs (Q := fun q s' => p = q ∧ s = s') ⟨rfl, rfl⟩) hq
      obtain ⟨log, hlog⟩ := read_ok_iff.mp hread
      exact (Runs.value (readLogged_runs hspc hk hm hm.clusterStream (by omega)) hlog).transfers
    split at h
    · obtain ⟨-, rfl⟩ := (pure_ok_iff _ _ _ _).mp h
      exact h1
    · exact h1.trans (readLoop_transfers hspc h1.kernel (h1.mounted hm) h)

/-- **A call on a live descriptor** answers from its private data. -/
theorem LiveRegular.call (hlive : LiveRegular f fd desc) (hk : KernelHeap f.sys.arena)
    (hm : Mounted f.sys p) (hspc : p.header.sectorsPerCluster < 256)
    (h : runCall fileSystemOf (op.call fd) f = .ok r f') :
    r = op.result desc.privateData ∧ Leaves f f' fd desc (op.leaves desc.privateData) := by
  obtain ⟨hfd, -, hslot⟩ := fsFind_slot hlive.found
  have hsame : Function.update f.fileDescriptors (fd - 1)
      (some { desc with privateData := desc.privateData }) = f.fileDescriptors := by
    rw [← hslot, Function.update_eq_self]
  have hfs : (f.sys.disks desc.disk).fs = some .fat16 := by
    rw [hlive.disk]
    exact hm.fs
  cases op with
  | read out size nmemb =>
    obtain ⟨code, f1, hread, hpure⟩ := (bind_ok_iff _ _ _ _ _).mp h
    obtain ⟨rfl, rfl⟩ := (pure_ok_iff _ _ _ _).mp hpure
    change (code, (none : Option FileStat)) = (if size = 0 ∨ nmemb = 0 then _ else _, none) ∧ _
    by_cases h0 : size = 0 ∨ nmemb = 0
    · rcases fsRead_ok hread with ⟨-, rfl, rfl⟩ | ⟨hgood, -⟩
      · rw [if_pos h0]
        exact ⟨rfl, Transfers.refl hk _, hsame.symm⟩
      · exact absurd (by omega) hgood
    · obtain ⟨rfl, -, htable, res, hloop⟩ := fsRead_loop hlive.found hlive.disk hlive.file (by omega)
        (by omega) hread
      rw [if_neg h0]
      exact ⟨rfl, readLoop_transfers hspc hk hm hloop, htable.trans hsame.symm⟩
  | seek offset mode =>
    obtain ⟨code, f1, hseek, hpure⟩ := (bind_ok_iff _ _ _ _ _).mp h
    obtain ⟨rfl, rfl⟩ := (pure_ok_iff _ _ _ _).mp hpure
    rcases fsSeek_ok hseek with ⟨hnone, -⟩ | ⟨d, fs, data, s, hfind, hdfs, hs, rfl⟩
    · rw [hlive.found] at hnone
      cases hnone
    · obtain rfl := Option.some_inj.mp (hlive.found.symm.trans hfind)
      obtain rfl := Option.some_inj.mp (hfs.symm.trans hdfs)
      obtain ⟨hpair, rfl⟩ := (pure_ok_iff _ _ _ _).mp hs
      change (code, (none : Option FileStat)) = ((fat16Seek desc.privateData offset mode).1, none) ∧
        Leaves f _ fd desc (fat16Seek desc.privateData offset mode).2
      rw [hpair]
      exact ⟨rfl, Transfers.refl hk _, rfl⟩
  | stat =>
    rcases fsStat_ok h with ⟨hnone, -⟩ | ⟨d, fs, s, hfind, hdfs, hs, rfl⟩
    · rw [hlive.found] at hnone
      cases hnone
    · obtain rfl := Option.some_inj.mp (hlive.found.symm.trans hfind)
      obtain rfl := Option.some_inj.mp (hfs.symm.trans hdfs)
      obtain ⟨rfl, rfl⟩ := (pure_ok_iff _ _ _ _).mp hs
      exact ⟨rfl, Transfers.refl hk _, hsame.symm⟩

/-- The descriptor of the call stays live. -/
theorem Leaves.live {data : FatFileDescriptor} (h : Leaves f f' fd desc data)
    (hlive : LiveRegular f fd desc) (hitem : data.item = desc.privateData.item)
    (hpos : data.pos < 2 ^ 32) : LiveRegular f' fd { desc with privateData := data } := by
  obtain ⟨hfd, hlt, -⟩ := fsFind_slot hlive.found
  refine ⟨?_, hlive.disk, hitem ▸ hlive.file, hpos⟩
  rw [fsFindFileDescriptor_eq, if_pos ⟨hfd, hlt⟩, h.table, Function.update_self]

/-- Any other live descriptor stays as it is. -/
theorem Leaves.other {data : FatFileDescriptor} (h : Leaves f f' fd desc data)
    (hlive : LiveRegular f fd desc) {fd' : Nat} {desc' : FileDescriptor FatFileDescriptor}
    (hlive' : LiveRegular f fd' desc') (hne : fd' ≠ fd) : LiveRegular f' fd' desc' := by
  obtain ⟨hfd, -, -⟩ := fsFind_slot hlive.found
  obtain ⟨hfd', hlt, hslot⟩ := fsFind_slot hlive'.found
  refine ⟨?_, hlive'.disk, hlive'.file, hlive'.pos⟩
  rw [fsFindFileDescriptor_eq, if_pos ⟨hfd', hlt⟩, h.table, Function.update_of_ne (by omega), hslot]

/-- The caller of a read owns the bytes that it reads into. -/
def OwnsBytes (a : Arena) : ReadOp → Prop
  | .read out size nmemb => CallersBytes a out (nmemb * size)
  | _ => True

/-- Every byte of a read lies in the sectors that its request asks for. -/
def OpInSectors (clusterSize pos : Nat) : ReadOp → Prop
  | .read _ size nmemb => ElementsInSectors clusterSize pos size nmemb
  | _ => True

/-- **A call whose bytes lie in the sectors it asks for delivers those of the disk.** -/
theorem LiveRegular.delivers (hlive : LiveRegular f fd desc) (hk : KernelHeap f.sys.arena)
    (hm : Mounted f.sys p) (hspc : p.header.sectorsPerCluster < 256)
    (hown : OwnsBytes f.sys.arena op)
    (hin : OpInSectors (fat16ClusterSize (f.sys.disks primaryDisk) p) desc.privateData.pos op)
    (h : runCall fileSystemOf (op.call fd) f = .ok r f') :
    op.delivered f'.sys.arena.mem = op.bytes f.sys.ata.image p
      (fat16ClusterSize (f.sys.disks primaryDisk) p) desc.privateData := by
  cases op with
  | read out size nmemb =>
    obtain ⟨code, f1, hread, hpure⟩ := (bind_ok_iff _ _ _ _ _).mp h
    obtain ⟨rfl, rfl⟩ := (pure_ok_iff _ _ _ _).mp hpure
    by_cases h0 : nmemb * size = 0
    · change slice _ _ _ = readBytes _ _ _ _ _ _
      unfold readBytes slice
      rw [h0]
      rfl
    · obtain ⟨hnmemb, hsize⟩ := Nat.mul_ne_zero_iff.mp h0
      exact (fsRead_bytes hk hm hspc hlive.found hlive.disk hlive.file hlive.pos
        (Nat.pos_of_ne_zero hsize) (Nat.pos_of_ne_zero hnmemb) hown (fun _ => hin) hread).2.2.2
  | seek => rfl
  | stat => rfl

end

/-! ## 3. Calls on two descriptors -/

section

variable {f0 f g f' g' : FileState FatFileDescriptor} {p : FatPrivate} {fd1 fd2 : Nat}

/-- What the party on `fd1` cannot tell apart: two states that have been reached by transfers from the
same one, in which its descriptor is the same. -/
structure Alike (f0 : FileState FatFileDescriptor) (fd1 fd2 : Nat) (f g : FileState FatFileDescriptor) :
    Prop where
  left : Transfers Set.univ f0.sys f.sys
  right : Transfers Set.univ f0.sys g.sys
  mine : ∃ desc, LiveRegular f fd1 desc ∧ LiveRegular g fd1 desc
  other : ∃ desc, LiveRegular f fd2 desc

/-- The caller's bytes stay his. -/
theorem OwnsBytes.transfers {s s' : Sys} {W : Set Nat} {op : ReadOp} (h : OwnsBytes s.arena op)
    (ht : Transfers W s s') : OwnsBytes s'.arena op := by
  cases op with
  | read => exact CallersBytes.reads h ht
  | seek => trivial
  | stat => trivial

/-- **A call on the other descriptor cannot be told.** -/
theorem Alike.other_call (h : Alike f0 fd1 fd2 f g) (hm : Mounted f0.sys p)
    (hspc : p.header.sectorsPerCluster < 256) (hne : fd1 ≠ fd2) {op : ReadOp} {seen : Seen}
    (hcall : Answers f ((fd2, op), seen) f') : Alike f0 fd1 fd2 f' g := by
  obtain ⟨r, hrun, -⟩ := hcall
  obtain ⟨desc, hmine, hmine'⟩ := h.mine
  obtain ⟨desc2, hother⟩ := h.other
  obtain ⟨-, hleaves⟩ := hother.call h.left.kernel (h.left.mounted hm) hspc hrun
  exact ⟨h.left.trans hleaves.transfers, h.right, ⟨desc, hleaves.other hother hmine hne, hmine'⟩, _,
    hleaves.live hother (ReadOp.leaves_item _ _) (ReadOp.leaves_pos hother.pos _)⟩

/-- What is seen of a call on the own descriptor. -/
theorem LiveRegular.sees {desc : FileDescriptor FatFileDescriptor} (hlive : LiveRegular f fd1 desc)
    (ht : Transfers Set.univ f0.sys f.sys) (hm : Mounted f0.sys p)
    (hspc : p.header.sectorsPerCluster < 256) {op : ReadOp} {seen : Seen}
    (hown : OwnsBytes f0.sys.arena op)
    (hin : OpInSectors (fat16ClusterSize (f0.sys.disks primaryDisk) p) desc.privateData.pos op)
    (hcall : Answers f ((fd1, op), seen) f') :
    seen = ⟨op.result desc.privateData, op.bytes f0.sys.ata.image p
        (fat16ClusterSize (f0.sys.disks primaryDisk) p) desc.privateData,
        some (op.leaves desc.privateData).pos⟩ ∧
      Transfers Set.univ f0.sys f'.sys ∧
      LiveRegular f' fd1 { desc with privateData := op.leaves desc.privateData } ∧
      ∀ fd2 desc2, fd2 ≠ fd1 → LiveRegular f fd2 desc2 → LiveRegular f' fd2 desc2 := by
  obtain ⟨r, hrun, hseen⟩ := hcall
  dsimp only at hrun hseen
  have hm' := ht.mounted hm
  obtain ⟨rfl, hleaves⟩ := hlive.call ht.kernel hm' hspc hrun
  have hbytes := hlive.delivers ht.kernel hm' hspc (hown.transfers ht)
    (by rw [ht.still.disks]; exact hin) hrun
  rw [ht.image, ht.still.disks] at hbytes
  have hlive' := hleaves.live hlive (ReadOp.leaves_item _ _) (ReadOp.leaves_pos hlive.pos _)
  refine ⟨?_, ht.trans hleaves.transfers, hlive', fun fd2 desc2 hne hother =>
    hleaves.other hlive hother hne⟩
  rw [hseen, hbytes]
  unfold posOf
  rw [hlive'.found]
  rfl

/-- **A call on the own descriptor is answered alike.** -/
theorem Alike.own_call (h : Alike f0 fd1 fd2 f g) (hm : Mounted f0.sys p)
    (hspc : p.header.sectorsPerCluster < 256) (hne : fd1 ≠ fd2) {op : ReadOp} {seen seen' : Seen}
    (hown : OwnsBytes f0.sys.arena op)
    (hin : ∀ desc, fsFindFileDescriptor f fd1 = some desc →
      OpInSectors (fat16ClusterSize (f0.sys.disks primaryDisk) p) desc.privateData.pos op)
    (hcall : Answers f ((fd1, op), seen) f') (hcall' : Answers g ((fd1, op), seen') g') :
    seen' = seen ∧ Alike f0 fd1 fd2 f' g' := by
  obtain ⟨desc, hmine, hmine'⟩ := h.mine
  obtain ⟨desc2, hother⟩ := h.other
  have hin := hin desc hmine.found
  obtain ⟨hseen, ht, hlive, hkeeps⟩ := hmine.sees h.left hm hspc hown hin hcall
  obtain ⟨hseen', ht', hlive', -⟩ := hmine'.sees h.right hm hspc hown hin hcall'
  exact ⟨hseen'.trans hseen.symm, ht, ht', ⟨_, hlive, hlive'⟩, desc2, hkeeps fd2 desc2 hne.symm hother⟩

end

/-! ## 4. Behind the sectors -/

/-- The lowest free block, which the next request for one block is given. -/
structure FirstFree (a : Arena) (b : Nat) : Prop where
  lt : b < 25600
  free : heapEntryIsFree (a.heap.table.entry b) = true
  lowest : ∀ j < b, heapEntryIsFree (a.heap.table.entry j) = false

theorem FirstFree.unique {a : Arena} {b c : Nat} (hb : FirstFree a b) (hc : FirstFree a c) : b = c := by
  rcases Nat.lt_trichotomy b c with h | h | h
  · exact absurd hb.free (by rw [hc.lowest b h]; decide)
  · exact h
  · exact absurd hc.free (by rw [hb.lowest c h]; decide)

/-- The bytes of the lowest free block are in a free block. -/
theorem FirstFree.inFree {a : Arena} {b x : Nat} (h : FirstFree a b) (hk : KernelHeap a)
    (hlo : blockAt b ≤ x) (hhi : x < blockAt b + 4096) : InFree a x := by
  have heq := hk.blockAt_eq h.lt
  exact ⟨b, hk.total ▸ h.lt, h.free, heq ▸ hlo, heq ▸ hhi⟩

theorem FirstFree.card {a : Arena} {b : Nat} (h : FirstFree a b) (hk : KernelHeap a) :
    (freeBlocks a.heap).card ≠ 0 :=
  Finset.card_ne_zero_of_mem (mem_freeBlocks.mpr ⟨hk.total ▸ h.lt, h.free⟩)

/-- **A request for one block** is given the lowest free one. -/
theorem KernelHeap.malloc_firstFree {a a' : Arena} (hk : KernelHeap a) {n p : Nat} (h0 : 0 < n)
    (hn : n ≤ 4096) (h : heapMalloc n a = .ok p a') :
    ∃ b, p = blockAt b ∧ FirstFree a b ∧ a'.mem = a.mem ∧ Added a a' b 1 := by
  have hone := blocksOf_small h0 hn
  have htotal := hk.total
  rcases hk.malloc (by omega) h with ⟨hzero, -⟩ | ⟨b, rfl, -, -, hadd⟩
  · exact absurd hone (by simp [blocksOf, hzero])
  · rw [hone] at hadd
    have hin := hadd.inside
    rcases heapMalloc_ok (by omega) h with ⟨hzero, -⟩ | ⟨-, c, haddr, hmarked⟩
    · exact absurd hone (by simp [blocksOf, hzero])
    · rw [hone] at hmarked
      have hcin := hmarked.inside
      rw [hk.address (by omega : c < 25600)] at haddr
      obtain rfl : b = c := by omega
      refine ⟨b, rfl, ⟨by omega, hadd.free 0 Nat.one_pos, fun j hj => ?_⟩, hadd.mem, hadd⟩
      have hno := hmarked.lowest j hj
      by_contra hfree
      refine hno fun i hi => ?_
      rw [Nat.lt_one_iff.mp hi, Nat.add_zero]
      simpa using hfree

section

variable {s s' : Sys} {stream buffer n : Nat} {code : Int}

/-- What a read of at most a sector makes of the lowest free block, and where it takes the bytes from
that are not in its sector. -/
structure ReadsOver (s s' : Sys) (pos buffer n b : Nat) : Prop where
  before : FirstFree s.arena b
  after : FirstFree s'.arena b
  cleared : ∀ x, blockAt b ≤ x → x < blockAt b + 4096 → s'.arena.mem x = 0
  bytes : ∀ i < n, 512 ≤ pos % 512 + i →
    s'.arena.mem (buffer + i) = s.arena.mem (blockAt b + (pos % 512 + i))

/-- **A read of at most a sector** leaves the lowest free block cleared; the bytes that are not in its
sector it takes from there. -/
theorem diskStreamRead_over (hk : KernelHeap s.arena) (hd : (s.streams stream).disk = primaryDisk)
    (h0 : 0 < n) (hn : n ≤ 512) (hown : Owned s.arena buffer n)
    (h : diskStreamRead stream buffer n s = .ok code s') :
    ∃ b, ReadsOver s s' (s.streams stream).pos buffer n b := by
  have hone := affectedSectors_one h0 hn
  obtain ⟨p, a1, hmalloc, ⟨hc, -⟩ | ⟨-, -, -, a2, hfree, rfl⟩⟩ :=
    (diskStreamRead_ok_iff (by omega) hd).mp h
  · rw [hone] at hc
    exact absurd hc (by decide)
  · rw [localBufferSize_one h0 hn] at hmalloc
    obtain ⟨b, rfl, hfirst, hmem1, hadd⟩ := hk.malloc_firstFree (by omega) (by omega) hmalloc
    obtain ⟨-, -, -, -, htaken, -⟩ := hk.temporary (by omega) hmalloc hfree rfl
    have hk1 : KernelHeap ⟨a1.heap, readMem s a1.mem stream buffer (blockAt b) n⟩ :=
      hadd.kernel.congr rfl
    obtain ⟨-, hmem, hzero, -, -⟩ := hk1.free_block hfirst.lt hfree
    change a2.mem = fill (readMem s a1.mem stream buffer (blockAt b) n) (blockAt b) 4096 0 at hmem
    have hblock : ∀ x, blockAt b ≤ x → x < blockAt b + 4096 → InFree s.arena x :=
      fun x => hfirst.inFree hk
    refine ⟨b, hfirst, ⟨hfirst.lt, ?_, fun j hj => ?_⟩, fun x hlo hhi => ?_, fun i hi hover => ?_⟩
    · rw [hzero]
      decide
    · have hlt := hfirst.lt
      rw [htaken j (by rw [hk.total]; omega) (hfirst.lowest j hj)]
      exact hfirst.lowest j hj
    · rw [hmem, fill_of_mem ⟨hlo, hhi⟩]
    · -- the byte is not in the block, its source is not among the caller's bytes
      have hsource : ¬ (buffer + 0 ≤ blockAt b + (s.streams stream).pos % 512 + i ∧
          blockAt b + (s.streams stream).pos % 512 + i < buffer + 0 + n) := by
        rintro ⟨h1, h2⟩
        refine hown (blockAt b + (s.streams stream).pos % 512 + i - buffer) (by omega) ?_
        exact hblock _ (by omega) (by omega)
      rw [hmem, fill_of_not_mem fun hin => hown i hi (hblock _ hin.1 hin.2), readMem,
        copyFromLocal_eq, copyLoop_of_mem (by omega) (by omega) hsource, blit_of_not_mem, hmem1,
        Nat.add_assoc]
      rw [length_slice, hone]
      omega

end

/-! ## 5. Two descriptors of one file -/

/-- The entry of a file of 1024 bytes whose first cluster is 3. -/
def sharedItem : FatDirectoryItem :=
  [66, 32, 32, 32, 32, 32, 32, 32, 84, 88, 84] ++ List.replicate 15 0 ++ [3, 0, 0, 4, 0, 0]

/-- A descriptor of the file. -/
def sharedDescriptor (fd pos : Nat) : FileDescriptor FatFileDescriptor where
  address := 0
  index := fd
  fs := .fat16
  disk := primaryDisk
  privateData := ⟨0, { address := 0, itemAddress := 0, item := sharedItem, type := .file }, pos⟩

/-- The file is open twice on a volume with clusters of one sector: at byte 511 on descriptor 1, at its
beginning on descriptor 2. -/
structure SharedFile (f : FileState FatFileDescriptor) (p : FatPrivate) : Prop where
  kernel : KernelHeap f.sys.arena
  mounted : Mounted f.sys p
  header : p.header = ⟨1, 1, 2, 16, 1, 100, 41⟩
  ending : p.rootDirectory.endingSectorPos = 4
  sectors : f.sys.ata.sectors = 100
  one : LiveRegular f 1 (sharedDescriptor 1 511)
  two : LiveRegular f 2 (sharedDescriptor 2 0)

/-- A file can be open twice, whatever is on the disk, with any value in the memory that is not used. -/
theorem shared_file (v : UInt8) (image : Mem) : ∃ f p, SharedFile f p ∧
    (freeBlocks f.sys.arena.heap).card ≠ 0 ∧ f.sys.ata.image = image ∧
    ∀ x, f.sys.arena.mem x = v := by
  obtain ⟨s, q, -, hb, hacc, -, hcard⟩ := blank_mounts (Nat.le_refl 0x10000000) [97]
  have hhead := hacc.blank_header
  have hend : q.rootDirectory.endingSectorPos = 4 := by
    rw [hacc.ending, blankSys_header]
    rfl
  refine ⟨⟨{ s with arena := ⟨s.arena.heap, fun _ => v⟩, ata := ⟨100, image⟩ }, fun _ => none,
    fun i => if i = 0 then some (sharedDescriptor 1 511) else if i = 1 then
      some (sharedDescriptor 2 0) else none⟩, q, ⟨hb.kernel.congr rfl, hb.mounted.congr rfl fun _ h => h,
    hhead, hend, rfl, ⟨rfl, rfl, rfl, by decide⟩, ⟨rfl, rfl, rfl, by decide⟩⟩, ?_, rfl, fun _ => rfl⟩
  change (freeBlocks s.arena.heap).card ≠ 0
  omega

section

variable {f : FileState FatFileDescriptor} {p : FatPrivate} {n pos : Nat}

theorem SharedFile.spc (h : SharedFile f p) : p.header.sectorsPerCluster < 256 := by
  rw [h.header]
  decide

theorem SharedFile.size (h : SharedFile f p) : fat16ClusterSize (f.sys.disks primaryDisk) p = 512 := by
  rw [h.mounted.clusterSize, h.header]
  rfl

/-- The first cluster begins at byte 2560, and the next one right behind it. -/
theorem SharedFile.start (h : SharedFile f p) : clusterPos p 3 = 2560 ∧ clusterPos p 4 = 3072 := by
  unfold clusterPos fat16ClusterToSector
  rw [h.header, h.ending]
  exact ⟨rfl, rfl⟩

/-- A read of at most a sector through one of the descriptors. -/
theorem SharedFile.read (h : SharedFile f p) (hcard : (freeBlocks f.sys.arena.heap).card ≠ 0) {fd : Nat}
    (hlive : LiveRegular f fd (sharedDescriptor fd pos)) (hfd : fd = 1 ∧ pos = 511 ∨ fd = 2 ∧ pos = 0)
    (h0 : 0 < n) (hn : n ≤ 512) : ∃ f' seen b,
      Answers f ((fd, .read 0x20000000 n 1), seen) f' ∧ SharedFile f' p ∧
      seen.bytes = slice f'.sys.arena.mem 0x20000000 (1 * n) ∧
      ReadsOver f.sys f'.sys (2560 + pos) 0x20000000 n b := by
  have hlt : pos < 512 := by omega
  have hsector : (clusterPos p 3 + pos) % 2 ^ 32 / 512 < f.sys.ata.sectors := by
    rw [h.start.1, h.sectors]
    omega
  have hsize := h.size
  obtain ⟨s', hstream, hinternal⟩ : ∃ s', diskStreamRead p.clusterReadStream 0x20000000 n (seekTo f.sys
      p.clusterReadStream ((clusterPos p 3 + pos) % 2 ^ 32)) = .ok ok s' ∧ _ :=
    readInternal_sector n h.kernel h.mounted h.mounted.clusterStream (by omega) (by omega) h0 hn
      (by omega) hcard hsector
  have hone : fat16ReadInternal primaryDisk (fat16GetFirstCluster sharedItem) pos n 0x20000000 f.sys =
      .ok ok s' := by
    unfold fat16ReadInternal
    rw [show fat16GetFirstCluster sharedItem = 3 by decide, bind_of_ok h.mounted.fsPrivate_run]
    exact hinternal
  have hread : fat16Read primaryDisk 0x20000000 (sharedDescriptor fd pos).privateData n 1 f.sys =
      .ok ok s' := by
    change fat16ReadLoop primaryDisk sharedItem n 1 pos 0x20000000 f.sys = .ok ok s'
    rw [fat16ReadLoop, bind_of_ok hone, if_neg (by simp)]
    rfl
  obtain ⟨f', hcall, rfl⟩ : ∃ f', fsRead fileSystemOf 0x20000000 fd n 1 f = .ok ok f' ∧ f'.sys = s' :=
    ⟨_, fsRead_run (by omega) Nat.one_ne_zero hlive.found (bind_of_ok hread _), rfl⟩
  have hrun : runCall fileSystemOf (ReadOp.call fd (.read 0x20000000 n 1)) f = .ok (ok, none) f' :=
    bind_of_ok hcall _
  obtain ⟨-, hleaves⟩ := hlive.call h.kernel h.mounted h.spc hrun
  have ht := hleaves.transfers
  have hlive' : LiveRegular f' fd (sharedDescriptor fd pos) :=
    hleaves.live hlive rfl (by change pos < 2 ^ 32; omega)
  have hone' : LiveRegular f' 1 (sharedDescriptor 1 511) := by
    rcases hfd with ⟨rfl, rfl⟩ | ⟨rfl, rfl⟩
    · exact hlive'
    · exact hleaves.other hlive h.one (by decide)
  have htwo' : LiveRegular f' 2 (sharedDescriptor 2 0) := by
    rcases hfd with ⟨rfl, rfl⟩ | ⟨rfl, rfl⟩
    · exact hleaves.other hlive h.two (by decide)
    · exact hlive'
  have hstill := still_seekTo f.sys p.clusterReadStream ((clusterPos p 3 + pos) % 2 ^ 32)
  obtain ⟨b, hover⟩ := diskStreamRead_over (s := seekTo f.sys p.clusterReadStream
    ((clusterPos p 3 + pos) % 2 ^ 32)) h.kernel (hstill.streams _ h.mounted.clusterStream) h0 hn
    (fun i _ => not_inFree_above h.kernel (by omega : 0x10000000 ≤ 0x20000000 + i)) hstream
  rw [seekTo_pos, h.start.1, Nat.mod_eq_of_lt (by omega)] at hover
  refine ⟨f', ⟨(ok, none), slice f'.sys.arena.mem 0x20000000 (1 * n), posOf f' fd⟩, b,
    ⟨_, hrun, rfl⟩, ⟨ht.kernel, ht.mounted h.mounted, h.header, h.ending, ?_, hone',
    htwo'⟩, rfl, ⟨hover.before, hover.after, hover.cleared, hover.bytes⟩⟩
  rw [ht.still.ata]
  exact h.sectors

end

/-- The bytes at `0x20000000` are the caller's. -/
theorem callersBytes_above {a : Arena} (hk : KernelHeap a) {n : Nat} (hn : n ≤ 512) :
    CallersBytes a 0x20000000 n :=
  ⟨fun i _ => not_inFree_above hk (by omega : 0x10000000 ≤ 0x20000000 + i), fun x hx =>
    (outside_above (by have := Set.mem_Ico.mp hx; omega)).2, by omega⟩

end KokoOs
