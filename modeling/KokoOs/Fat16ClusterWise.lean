/-
# Reading cluster by cluster

Byte `i` of a read at `offset` is that of cluster `(offset + i) / C` of the chain.  The driver walks
on from the cluster it has come to, by as many links as the offset in the *file* has clusters; so
after the first request it is at the cluster it wants only if the chain happens to come there.  A chain
that is too short is never reported: the status of the failed walk is taken for the number of a
cluster.

* **What is wanted.**  `ClusterWise` compares the log of a read with the places of the bytes that
  were asked for, one by one.
* **Where the driver goes.**  `linksWalked` is how far it has walked when it makes a request, and
  `LeadsRight` says that these walks come to the wanted clusters.
* **The result.**  The two are equivalent, chunk by chunk (`clusterWise_iff`).

It says where the bytes are looked for.  That they are delivered needs moreover that each of them
lies in the sectors that its request asks for (`InSectors`), which is a condition of the stream.

A read over two clusters does come right, if it begins at the beginning of a chain
(`clusterWise_two_clusters`), and goes wrong if it begins one byte behind it (`read_crosses_cluster`).
-/
import KokoOs.Fat16Read

namespace KokoOs

open Bytes Prog

/-! ## 1. What is wanted -/

/-- The bytes of a request: where each of them goes, and the place in a cluster that it comes from. -/
def ReadRequest.bytes (q : ReadRequest) : List (Nat × Option Nat × Nat) :=
  (List.range q.length).map fun i => ((q.out + i) % 2 ^ 32, some q.cluster, q.offset + i)

/-- The chain has enough clusters: no invalid entry is met before the last byte. -/
def LongEnough (image : Mem) (header : FatHeader) (clusterSize c0 offset total : Nat) : Prop :=
  (walkWords image header ((offset + total - 1) / clusterSize) c0).isSome

/-- Where byte `i` of a read at `offset` is: the cluster of the chain, and the place in it. -/
def placeOf (image : Mem) (header : FatHeader) (clusterSize c0 offset i : Nat) : Option Nat × Nat :=
  (walkWords image header ((offset + i) / clusterSize) c0, (offset + i) % clusterSize)

/-- A read with the log of its requests goes cluster by cluster: if the chain is long enough, byte `i`
comes from cluster `(offset + i) / C` of the chain, and no request leaves its cluster; otherwise the
read fails. -/
structure ClusterWise (image : Mem) (header : FatHeader) (clusterSize c0 offset total out : Nat)
    (r : Int × List ReadRequest) : Prop where
  bytes : LongEnough image header clusterSize c0 offset total → r.1 = ok ∧
    r.2.flatMap ReadRequest.bytes = (List.range total).map fun i =>
      ((out + i) % 2 ^ 32, placeOf image header clusterSize c0 offset i)
  within : LongEnough image header clusterSize c0 offset total →
    ∀ q ∈ r.2, q.offset + q.length ≤ clusterSize
  short : ¬ LongEnough image header clusterSize c0 offset total → r.1 ≠ ok

/-! ## 2. Where the driver goes -/

/-- The links that the driver has walked when it makes request `j`. -/
def linksWalked (clusterSize : Nat) : Nat → Nat → Nat
  | offset, 0 => offset / clusterSize
  | offset, j + 1 => offset / clusterSize + linksWalked clusterSize ((offset + clusterSize) % 2 ^ 32) j

section

variable {image : Mem} {header : FatHeader} {C c c0 offset total out j : Nat}

/-- Before a cluster that a walk comes to there are others. -/
theorem walkWords_isSome_of_le {a b : Nat} (hab : a ≤ b)
    (h : (walkWords image header b c).isSome) : (walkWords image header a c).isSome := by
  obtain ⟨k, rfl⟩ := Nat.exists_eq_add_of_le hab
  rw [walkWords_add] at h
  cases ha : walkWords image header a c with
  | none =>
    rw [ha] at h
    exact h
  | some c' => rfl

theorem walkWords_succ_lt {k c' : Nat} (h : walkWords image header (k + 1) c = some c') :
    c' < 2 ^ 16 := by
  rw [walkWords] at h
  split at h
  · cases h
  · exact walkWords_lt (u16_lt _ _) h

/-- A walk that does not fail gives its cluster. -/
theorem some_walkCluster {k : Nat} (h : (walkWords image header k c).isSome) :
    some (walkCluster image header k c) = walkWords image header k c := by
  obtain ⟨c', hc'⟩ := Option.isSome_iff_exists.mp h
  unfold walkCluster
  rw [hc']
  rfl

theorem isSome_of_walkCluster {k : Nat}
    (h : walkCluster image header k c ≠ toUnsigned systemFail) :
    (walkWords image header k c).isSome := by
  unfold walkCluster at h
  cases hw : walkWords image header k c with
  | none =>
    rw [hw] at h
    exact absurd rfl h
  | some c' => rfl

/-- As long as no walk fails, the driver is where all its walks together lead. -/
theorem some_clusterOf (h0 : (walkWords image header (offset / C) c).isSome)
    (h : ∀ i, 0 < i → i ≤ j → (walkWords image header (linksWalked C offset i) c).isSome ∨
      clusterOf image header C c offset i ≠ toUnsigned systemFail) :
    some (clusterOf image header C c offset j) =
      walkWords image header (linksWalked C offset j) c := by
  induction j generalizing c offset with
  | zero => exact some_walkCluster h0
  | succ j ih =>
    have hsome := some_walkCluster h0
    rw [clusterOf, linksWalked, walkWords_add, ← hsome, Option.bind_some]
    have hnext : ∀ i, (walkWords image header (linksWalked C ((offset + C) % 2 ^ 32) i)
        (walkCluster image header (offset / C) c)) =
        walkWords image header (linksWalked C offset (i + 1)) c := fun i => by
      rw [linksWalked, walkWords_add, ← hsome, Option.bind_some]
    refine ih ?_ fun i hi hij => ?_
    · rcases h 1 (by omega) (by omega) with h1 | h1
      · rw [← hnext 0] at h1
        exact h1
      · exact isSome_of_walkCluster h1
    · rw [hnext i]
      exact h (i + 1) (by omega) (by omega)

/-! ## 3. Chunk by chunk -/

/-- What holds of all chunks holds of the first one and of those behind it. -/
theorem forall_chunk_iff {P : Nat → Prop} (h0 : 0 < total) :
    (∀ j, j * C < total → P j) ↔ P 0 ∧ ∀ j, j * C < total - min total C → P (j + 1) := by
  constructor
  · refine fun h => ⟨h 0 (by omega), fun j hj => h (j + 1) ?_⟩
    rw [Nat.succ_mul]
    omega
  · rintro ⟨hzero, hsucc⟩ j hj
    cases j with
    | zero => exact hzero
    | succ j =>
      refine hsucc j ?_
      rw [Nat.succ_mul] at hj
      omega

theorem append_eq_append_iff_of_length {α : Type} {l l' r r' : List α} (h : l.length = l'.length) :
    l ++ r = l' ++ r' ↔ l = l' ∧ r = r' :=
  ⟨fun heq => List.append_inj heq h, fun ⟨h1, h2⟩ => h1 ▸ h2 ▸ rfl⟩

/-- The bytes of a request are those that are wanted if they come from the right places. -/
theorem request_bytes_iff {offset length : Nat} {h : Nat → Option Nat × Nat} :
    (ReadRequest.mk c offset length out).bytes =
      (List.range length).map (fun i => ((out + i) % 2 ^ 32, h i)) ↔
      ∀ i < length, (some c, offset + i) = h i := by
  unfold ReadRequest.bytes
  rw [List.map_inj_left]
  refine forall_congr' fun i => ?_
  rw [List.mem_range, Prod.mk.injEq]
  exact imp_congr_right fun _ => ⟨fun heq => heq.2, fun heq => ⟨rfl, heq⟩⟩

/-- **The requests of a read ask for the wanted bytes, and none crosses the end of its cluster, if and
only if each of them does.**  The wanted places are given by `h`. -/
theorem requests_bytes_iff {fuel : Nat} {h : Nat → Option Nat × Nat} (hC : 0 < C)
    (hfuel : total ≤ fuel) (h0 : 0 < total) (hoff : offset < 2 ^ 32) :
    ((readRequests image header C fuel c offset total out).flatMap ReadRequest.bytes =
        (List.range total).map (fun i => ((out + i) % 2 ^ 32, h i)) ∧
      ∀ q ∈ readRequests image header C fuel c offset total out, q.offset + q.length ≤ C) ↔
    ∀ j, j * C < total →
      (∀ i < min (total - j * C) C, (some (clusterOf image header C c offset j),
        (offset + j * C) % 2 ^ 32 % C + i) = h (j * C + i)) ∧
      (offset + j * C) % 2 ^ 32 % C + min (total - j * C) C ≤ C := by
  induction fuel generalizing c offset total out h with
  | zero => omega
  | succ fuel ih =>
    have hsplit : List.range total = List.range (min total C) ++
        (List.range (total - min total C)).map (min total C + ·) := by
      rw [← List.range_add]
      congr 1
      omega
    have hlength : (ReadRequest.mk (walkCluster image header (offset / C) c) (offset % C)
        (min total C) out).bytes.length = ((List.range (min total C)).map
          fun i => ((out + i) % 2 ^ 32, h i)).length := by
      simp [ReadRequest.bytes]
    rw [readRequests, List.flatMap_cons, List.forall_mem_cons, hsplit, List.map_append, List.map_map,
      append_eq_append_iff_of_length hlength, request_bytes_iff, forall_chunk_iff h0,
      and_and_and_comm]
    refine and_congr ?_ ?_
    · rw [Nat.zero_mul, Nat.add_zero, Nat.mod_eq_of_lt hoff, Nat.sub_zero]
      simp only [Nat.zero_add]
      rfl
    · by_cases hrest : total - min total C > 0
      · have hmin : min total C = C := by omega
        have hmap : ((fun i => ((out + i) % 2 ^ 32, h i)) ∘ fun i => C + i) =
            fun i => (((out + C) % 2 ^ 32 + i) % 2 ^ 32, h (C + i)) := by
          funext i
          rw [Function.comp_apply, Nat.mod_add_mod, Nat.add_assoc]
        rw [hmin] at hrest ⊢
        rw [if_pos hrest, hmap]
        refine (ih (by omega) hrest (Nat.mod_lt _ (by omega))).trans ?_
        refine forall_congr' fun j => imp_congr_right fun _ => ?_
        have hsub : total - C - j * C = total - (j + 1) * C := by
          rw [Nat.succ_mul]
          omega
        have hadd : ∀ i, C + (j * C + i) = (j + 1) * C + i := fun i => by
          rw [Nat.succ_mul]
          omega
        rw [offset_succ, hsub]
        simp only [hadd]
        rfl
      · rw [if_neg hrest]
        refine iff_of_true ⟨?_, fun q hq => absurd hq (by simp)⟩ fun j hj => absurd hj (by omega)
        have hnone : total - min total C = 0 := by omega
        rw [hnone]
        rfl

/-! ## 4. When the two agree -/

/-- The driver comes to the wanted clusters: the chain is long enough, the first request stays in its
cluster, and for every request the links that the driver has walked lead to the same cluster as
those of the offset (which does not wrap around within a cluster). -/
structure LeadsRight (image : Mem) (header : FatHeader) (clusterSize c0 offset total : Nat) :
    Prop where
  enough : LongEnough image header clusterSize c0 offset total
  inside : offset % clusterSize + min total clusterSize ≤ clusterSize
  links : ∀ j, j * clusterSize < total →
    (offset + j * clusterSize) % 2 ^ 32 % clusterSize = offset % clusterSize ∧
    walkWords image header (linksWalked clusterSize offset j) c0 =
      walkWords image header (offset / clusterSize + j) c0

/-- Within a cluster the place moves on byte by byte. -/
theorem placeOf_chunk {i : Nat} (h : offset % C + i < C) :
    placeOf image header C c0 offset (j * C + i) =
      (walkWords image header (offset / C + j) c0, offset % C + i) := by
  have hsum : offset + (j * C + i) = offset % C + i + C * (offset / C + j) := by
    have := Nat.div_add_mod offset C
    rw [Nat.mul_add, Nat.mul_comm j C]
    omega
  rw [placeOf, hsum, Nat.add_mul_div_left _ _ (by omega), Nat.add_mul_mod_self_left,
    Nat.div_eq_of_lt h, Nat.mod_eq_of_lt h, Nat.zero_add]

/-- The cluster of a chunk is one that the chain has. -/
theorem LongEnough.isSome (h : LongEnough image header C c0 offset total) (hC : 0 < C)
    (hj : j * C < total) : (walkWords image header (offset / C + j) c0).isSome := by
  refine walkWords_isSome_of_le ?_ h
  rw [← Nat.add_mul_div_right offset j hC]
  exact Nat.div_le_div_right (by omega)

/-- Each chunk comes from the wanted places if and only if the driver comes to the wanted clusters. -/
theorem chunks_iff_leadsRight (hlong : LongEnough image header C c0 offset total) (hC : 0 < C)
    (h0 : 0 < total) (hoff : offset < 2 ^ 32) :
    (∀ j, j * C < total →
      (∀ i < min (total - j * C) C, (some (clusterOf image header C c0 offset j),
        (offset + j * C) % 2 ^ 32 % C + i) = placeOf image header C c0 offset (j * C + i)) ∧
      (offset + j * C) % 2 ^ 32 % C + min (total - j * C) C ≤ C) ↔
    LeadsRight image header C c0 offset total := by
  have hfirst : (walkWords image header (offset / C) c0).isSome :=
    hlong.isSome hC (j := 0) (by omega)
  constructor
  · intro h
    have hinside : offset % C + min total C ≤ C := by
      have h1 := (h 0 (by omega)).2
      rwa [Nat.zero_mul, Nat.add_zero, Nat.sub_zero, Nat.mod_eq_of_lt hoff] at h1
    have hat : ∀ j, j * C < total → some (clusterOf image header C c0 offset j) =
        walkWords image header (offset / C + j) c0 ∧
        (offset + j * C) % 2 ^ 32 % C = offset % C := by
      intro j hj
      have h1 := (h j hj).1 0 (by omega)
      rw [placeOf_chunk (by omega)] at h1
      exact ⟨congrArg Prod.fst h1, congrArg Prod.snd h1⟩
    refine ⟨hlong, hinside, fun j hj => ⟨(hat j hj).2, ?_⟩⟩
    rw [← (hat j hj).1]
    refine (some_clusterOf hfirst fun i hi hij => Or.inr fun hbad => ?_).symm
    -- no cluster behind a link has the number of the status
    have h1 := (hat i (Nat.lt_of_le_of_lt (Nat.mul_le_mul_right C hij) hj)).1
    obtain ⟨k, rfl⟩ := Nat.exists_eq_succ_of_ne_zero (Nat.pos_iff_ne_zero.mp hi)
    have hlt := walkWords_succ_lt (k := offset / C + k) h1.symm
    rw [hbad] at hlt
    exact absurd hlt (by decide)
  · intro h j hj
    have hsome : ∀ i ≤ j, (walkWords image header (linksWalked C offset i) c0).isSome :=
      fun i hij => by
        have hi := Nat.lt_of_le_of_lt (Nat.mul_le_mul_right C hij) hj
        rw [(h.links i hi).2]
        exact hlong.isSome hC hi
    have hcluster := some_clusterOf hfirst fun i _ hij => Or.inl (hsome i hij)
    rw [hcluster, (h.links j hj).1, (h.links j hj).2]
    have hinside := h.inside
    refine ⟨fun i hi => ?_, by omega⟩
    rw [placeOf_chunk (by omega)]

/-- The requests of a read ask for the wanted bytes if and only if the driver comes to the clusters of
these. -/
theorem requests_iff_leadsRight {fuel : Nat} (out : Nat)
    (hlong : LongEnough image header C c0 offset total) (hC : 0 < C) (hfuel : total ≤ fuel)
    (h0 : 0 < total) (hoff : offset < 2 ^ 32) :
    ((readRequests image header C fuel c0 offset total out).flatMap ReadRequest.bytes =
        (List.range total).map (fun i => ((out + i) % 2 ^ 32, placeOf image header C c0 offset i)) ∧
      ∀ q ∈ readRequests image header C fuel c0 offset total out, q.offset + q.length ≤ C) ↔
    LeadsRight image header C c0 offset total :=
  (requests_bytes_iff hC hfuel h0 hoff).trans (chunks_iff_leadsRight hlong hC h0 hoff)

end

section

variable {s s' : Sys} {p : FatPrivate} {stream fuel c0 offset total out : Nat} {code : Int}

/-- **A read goes cluster by cluster exactly if the driver comes to the wanted clusters.** -/
theorem clusterWise_iff (hk : KernelHeap s.arena) (hm : Mounted s p)
    (hspc : p.header.sectorsPerCluster < 256) (hd : (s.streams stream).disk = primaryDisk)
    (hc : c0 < 2 ^ 32) (hoff : offset < 2 ^ 32) (h0 : 1 ≤ total) (hfuel : total ≤ fuel)
    (h : fat16ReadInternalFromStream primaryDisk stream fuel c0 offset total out s = .ok code s') :
    ∃ log, fat16ReadLogged primaryDisk stream fuel c0 offset total out s = .ok (code, log) s' ∧
      (ClusterWise s.ata.image p.header (fat16ClusterSize (s.disks primaryDisk) p) c0 offset total
          out (code, log) ↔
        LeadsRight s.ata.image p.header (fat16ClusterSize (s.disks primaryDisk) p) c0 offset
          total) := by
  obtain ⟨log, hrun⟩ := read_ok_iff.mp h
  refine ⟨log, hrun, ?_⟩
  have hdone := Runs.value (readLogged_runs hspc hk hm hd hc) hrun
  have hC := Nat.pos_of_ne_zero hdone.size
  have hok : code = ok := hdone.code.mpr (by omega)
  have hlog := hdone.log
  constructor
  · intro hwise
    have hlong : LongEnough s.ata.image p.header (fat16ClusterSize (s.disks primaryDisk) p) c0 offset
        total := by
      by_contra hshort
      exact hwise.short hshort hok
    have hbytes := (hwise.bytes hlong).2
    have hwithin := hwise.within hlong
    rw [hlog] at hbytes hwithin
    exact (requests_iff_leadsRight out hlong hC hfuel h0 hoff).mp ⟨hbytes, hwithin⟩
  · intro hlead
    have hboth := (requests_iff_leadsRight out hlead.enough hC hfuel h0 hoff).mpr hlead
    rw [← hlog] at hboth
    exact ⟨fun _ => ⟨hok, hboth.1⟩, fun _ => hboth.2, fun hshort => absurd hlead.enough hshort⟩

end

/-! ## 5. Reads on small volumes -/

/-- On a mounted blank volume a read in the first cluster of the disk returns. -/
theorem blank_read {offset total : Nat} (out : Nat) (hoff : offset < 512) (h0 : 0 < total)
    (hn : total ≤ 512) : ∃ s q code s',
      fat16Resolve primaryDisk (blankSys 0x10000000 [97]) = .ok ok s ∧
      KernelHeap s.arena ∧ Mounted s q ∧ q.header = ⟨1, 1, 2, 16, 1, 100, 41⟩ ∧
      s.ata = (blankSys 0x10000000 [97]).ata ∧ fat16ClusterSize (s.disks primaryDisk) q = 512 ∧
      fat16ReadInternalFromStream primaryDisk q.clusterReadStream (total + 1) 3 offset total out s =
        .ok code s' := by
  obtain ⟨s, q, hmount, hb, hacc, hata, hfree⟩ := blank_mounts (Nat.le_refl 0x10000000) [97]
  have hhead := hacc.blank_header
  have hsize : fat16ClusterSize (s.disks primaryDisk) q = 512 := by
    rw [hb.mounted.clusterSize, hhead]
    rfl
  have hpos := clusterPos_three hhead hacc.blank_ending
  have hsector : (clusterPos q 3 + offset) % 2 ^ 32 / 512 < s.ata.sectors := by
    rw [hpos, hata]
    change (2560 + offset) % 2 ^ 32 / 512 < 100
    omega
  obtain ⟨s', -, hrun⟩ : ∃ s', _ ∧ fat16ReadInternalFromStream primaryDisk q.clusterReadStream
      (total + 1) 3 offset total out s = .ok ok s' :=
    readInternal_sector total hb.kernel hb.mounted hb.mounted.clusterStream (by omega) (by omega) h0 hn
      (by omega) (by omega) hsector
  exact ⟨s, q, ok, s', hmount, hb.kernel, hb.mounted, hhead, hata, hsize, hrun⟩

/-- A volume with the word 41 where the driver looks for the entry of cluster 40. -/
def chainSys : Sys := volumeSys fun x => if x = 80 then 41 else 0

/-- The volume has been mounted. -/
structure ChainMounted (s : Sys) (q : FatPrivate) : Prop where
  kernel : KernelHeap s.arena
  mounted : Mounted s q
  header : q.header = ⟨1, 1, 2, 16, 1, 100, 41⟩
  ending : q.rootDirectory.endingSectorPos = 4
  ata : s.ata = chainSys.ata
  card : 25595 ≤ (freeBlocks s.arena.heap).card

theorem chain_mounts : ∃ s q, ChainMounted s q := by
  have hcard : (freeBlocks chainSys.arena.heap).card = 25600 := freshKernel_free _
  have hmount : Mountable chainSys :=
    volumeSys_mountable (k := 0) (by decide) rfl fun j hj => absurd hj (Nat.not_lt_zero j)
  have hhead : volumeHeader chainSys = ⟨1, 1, 2, 16, 1, 100, 41⟩ := volumeSys_header _
  obtain ⟨s, q, -, hm, hacc, ht, hata, hfree⟩ := hmount.mounts (freshKernel_kernelHeap _) rfl rfl
  exact ⟨s, q, ht.kernel, hm, hacc.header.trans hhead, hacc.ending.trans (by rw [hhead]; rfl), hata,
    by omega⟩

/-- While the volume is read it stays what it is. -/
theorem ChainMounted.reads {s s' : Sys} {q : FatPrivate} {T W : Set Nat} (h : ChainMounted s q)
    (hr : Reads T W s s') (hcard : (freeBlocks s.arena.heap).card ≤ (freeBlocks s'.arena.heap).card) :
    ChainMounted s' q :=
  ⟨hr.kernel, hr.mounted h.mounted, h.header, h.ending, hr.ata.trans h.ata, Nat.le_trans h.card hcard⟩

theorem ChainMounted.clusterSize {s : Sys} {q : FatPrivate} (h : ChainMounted s q) :
    fat16ClusterSize (s.disks primaryDisk) q = 512 := by
  rw [h.mounted.clusterSize, h.header]
  rfl

/-- One request of a read, in cluster 40 or 41. -/
theorem ChainMounted.request {s : Sys} {q : FatPrivate} {c n : Nat} (h : ChainMounted s q)
    (hc : c = 40 ∨ c = 41) (out : Nat) (h0 : 0 < n) (hn : n ≤ 512) : ∃ s',
    diskStreamRead q.clusterReadStream out n
      (seekTo s q.clusterReadStream ((clusterPos q c + 0) % 2 ^ 32)) = .ok ok s' ∧
    ChainMounted s' q := by
  have hpos : clusterPos q 40 = 21504 ∧ clusterPos q 41 = 22016 := by
    unfold clusterPos fat16ClusterToSector
    rw [h.header, h.ending]
    exact ⟨rfl, rfl⟩
  have hstill := still_seekTo s q.clusterReadStream ((clusterPos q c + 0) % 2 ^ 32)
  have hseek : ChainMounted (seekTo s q.clusterReadStream ((clusterPos q c + 0) % 2 ^ 32)) q :=
    ⟨h.kernel, hstill.mounted h.mounted, h.header, h.ending, hstill.ata.trans h.ata, h.card⟩
  obtain ⟨code, s', hrun, rfl, hread⟩ : ∃ code s', diskStreamRead q.clusterReadStream out n
      (seekTo s q.clusterReadStream ((clusterPos q c + 0) % 2 ^ 32)) = .ok code s' ∧ code = ok ∧
      SectorRead q.clusterReadStream out n _ s' := Runs.total (diskStreamRead_sector hseek.kernel
    hseek.mounted.clusterStream h0 hn fun hbad => by
      have hcard := hseek.card
      rw [seekTo_pos, hseek.ata] at hbad
      change _ ∨ 100 < _ at hbad
      rcases hc with rfl | rfl <;> omega)
  exact ⟨s', hrun, hseek.reads hread.reads hread.card⟩

/-- The driver walks from cluster 40 to cluster 41. -/
theorem ChainMounted.walk {s : Sys} {q : FatPrivate} (h : ChainMounted s q) : ∃ s',
    fat16GetClusterForOffset primaryDisk 40 512 s = .ok ((41 : Nat) : Int) s' ∧ ChainMounted s' q := by
  have hcard := h.card
  have hword : fatWord s.ata.image q.header 40 = 41 := by
    rw [h.ata, h.header]
    decide
  obtain ⟨e, s', hrun, rfl, hreads, hcard', -⟩ := Runs.total (getFatEntry_runs h.kernel h.mounted 40
    fun hbad => by
      refine absurd ⟨by omega, ?_⟩ hbad
      unfold OnDevice
      rw [h.header, h.ata]
      decide)
  rw [hword] at hrun
  refine ⟨s', ?_, h.reads hreads hcard'⟩
  rw [getClusterForOffset_run h.mounted, h.clusterSize, if_neg (by decide)]
  exact bind_of_ok hrun _

/-- **A sector and a byte** are read from cluster 40 on, in two requests. -/
theorem ChainMounted.read {s : Sys} {q : FatPrivate} (h : ChainMounted s q) (out : Nat) : ∃ s',
    fat16ReadInternalFromStream primaryDisk q.clusterReadStream 514 40 0 513 out s = .ok ok s' := by
  have hwalk : fat16GetClusterForOffset primaryDisk 40 0 s = .ok ((40 : Nat) : Int) s := by
    rw [getClusterForOffset_run h.mounted, h.clusterSize, if_neg (by decide)]
    rfl
  obtain ⟨s2, hread, h2⟩ := h.request (Or.inl rfl) out (n := 512) (by decide) (by decide)
  obtain ⟨s3, hwalk2, h3⟩ := h2.walk
  obtain ⟨s4, hread2, -⟩ := h3.request (Or.inr rfl) ((out + 512) % 2 ^ 32) (n := 1) (by decide) (by decide)
  refine ⟨s4, ?_⟩
  rw [readInternal_step 513 h.mounted hwalk h.mounted (by decide) h.clusterSize]
  refine (bind_of_ok hread _).trans ?_
  rw [if_neg (by simp), if_pos (by decide)]
  change fat16ReadInternalFromStream primaryDisk q.clusterReadStream 513 40 512 1 _ s2 = _
  rw [readInternal_step 512 h2.mounted hwalk2 h3.mounted (by decide) h2.clusterSize]
  exact bind_of_ok hread2 _

/-- **Over two clusters** a read from the beginning of a chain goes cluster by cluster. -/
theorem clusterWise_two_clusters : ∃ (s s' : Sys) (q : FatPrivate) (log : List ReadRequest),
    fat16ReadLogged primaryDisk q.clusterReadStream 514 40 0 513 0x20000000 s = .ok (ok, log) s' ∧
    ClusterWise s.ata.image q.header 512 40 0 513 0x20000000 (ok, log) := by
  obtain ⟨s, q, h⟩ := chain_mounts
  obtain ⟨s', hrun⟩ := h.read 0x20000000
  obtain ⟨log, hlog, hiff⟩ := clusterWise_iff h.kernel h.mounted (by rw [h.header]; decide)
    h.mounted.clusterStream (by omega) (by omega) (by omega) (by omega) hrun
  rw [h.clusterSize] at hiff
  refine ⟨s, s', q, log, hlog, hiff.mpr ?_⟩
  rw [h.ata, h.header]
  refine ⟨by unfold LongEnough; decide, by decide, fun j hj => ?_⟩
  obtain rfl | rfl : j = 0 ∨ j = 1 := by omega
  · exact ⟨by decide, by decide⟩
  · exact ⟨by decide, by decide⟩

/-- **A sector that begins at byte 1 of a cluster of one sector** is not read cluster by cluster: the
chain ends with that cluster, and the read returns `OK` with a byte from behind it. -/
theorem read_crosses_cluster : ¬ ∀ (s s' : Sys) (q : FatPrivate) (code : Int)
    (log : List ReadRequest) (stream c0 offset total out : Nat), KernelHeap s.arena → Mounted s q →
    q.header.sectorsPerCluster < 256 → (s.streams stream).disk = primaryDisk → c0 < 2 ^ 32 →
    offset < 2 ^ 32 → 1 ≤ total →
    fat16ReadLogged primaryDisk stream (total + 1) c0 offset total out s = .ok (code, log) s' →
    ClusterWise s.ata.image q.header (fat16ClusterSize (s.disks primaryDisk) q) c0 offset total out
      (code, log) := by
  intro hclaim
  obtain ⟨s, q, code, s', -, hk, hm, hhead, hata, hsize, hrun⟩ :=
    blank_read 0x20000000 (by omega : 1 < 512) (by omega : 0 < 512) (by omega)
  obtain ⟨log, hlog⟩ := read_ok_iff.mp hrun
  have hspc : q.header.sectorsPerCluster < 256 := by rw [hhead]; decide
  have hwise := hclaim s s' q code log _ 3 1 512 0x20000000 hk hm hspc hm.clusterStream (by omega)
    (by omega) (by omega) hlog
  have hdone := Runs.value (readLogged_runs hspc hk hm hm.clusterStream (by omega)) hlog
  refine hwise.short ?_ (hdone.code.mpr (by omega))
  unfold LongEnough
  rw [hsize, hata, hhead]
  change ¬ (walkWords (fun x => blankBootSector.getD x 0) _ 1 3).isSome
  decide

end KokoOs
