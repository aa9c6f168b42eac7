/-
# What opening costs

`fs_open` parses its path into nodes on the heap and never frees them, whether it finds the file or not.
Nobody has their address afterwards, so no call and no client can ever give them back: every run of the
kernel pays for its calls of `fs_open` with blocks that stay taken, and the heap bounds the number of
calls that return (`opens_exhaust_heap`).

* **The cost of a path** is the number of blocks of its root, its parts and their names (`pathBlocks`);
  `0:/a` costs three.
* **A call** leaves the blocks of its path behind, and none of them is an open file's (`fsOpen_leaves`).
* **A run** adds up the costs of its calls.  What is stuck stays stuck (`stuck_stays`), so the
  blocks of one call are not those of another, and there are 25600 blocks.

Moves of clients that give back what is allocated are left out (`KernelMove.GivesNothing`): a client
that frees addresses it has never been given could free anything.
-/
import KokoOs.FileDisk
import KokoOs.PathFree

namespace KokoOs

open Bytes Prog
open Runs (Run AllSteps totalCost)

/-! ## 1. The blocks of a path -/

/-- The blocks that a path takes: the root, and for each name a part and the name.  If there are empty
names, the root and a part. -/
def pathBlocks (bytes : List UInt8) : Nat :=
  if [] ∈ (partSplit (bytes.drop 3)).all then 2 else 1 + 2 * (partSplit (bytes.drop 3)).all.length

theorem length_nodeBlocks (l : List (Nat × Nat)) : (nodeBlocks l).length = 2 * l.length := by
  induction l with
  | nil => rfl
  | cons q l ih =>
    change (nodeBlocks l).length + 1 + 1 = _
    rw [ih, List.length_cons]
    omega

section

variable {base a : Arena} {root rtb first pb : Nat} {d : UInt8} {split : PathSplit} {S : Set Nat}

/-- A parsed path is made of that many new blocks. -/
theorem Parsed.newBlocks (h : Parsed base a root d split rtb first pb S) : ∃ L : Finset Nat,
    L.card = (if [] ∈ split.all then 2 else 1 + 2 * split.all.length) ∧
      ∀ b ∈ L, Held a b ∧ heapEntryIsFree (base.heap.table.entry b) = true := by
  obtain ⟨lost, howns, -, -⟩ := h.owns
  have hnew : ∀ b ∈ insert rtb (insert pb S),
      Held a b ∧ heapEntryIsFree (base.heap.table.entry b) = true :=
    fun b hb => ⟨howns.held b (Or.inl hb), howns.free b (Or.inl hb)⟩
  have hapart := h.apart
  by_cases hempty : [] ∈ split.all
  · rw [if_pos hempty]
    have hne : rtb ≠ pb := fun heq => hapart (heq ▸ Set.mem_insert _ _)
    refine ⟨{rtb, pb}, Finset.card_pair hne, fun b hb => hnew b ?_⟩
    rcases Finset.mem_insert.mp hb with rfl | hb
    · exact Set.mem_insert _ _
    · rw [Finset.mem_singleton.mp hb]
      exact Set.mem_insert_of_mem _ (Set.mem_insert _ _)
  · rw [if_neg hempty]
    obtain ⟨l, nb, hopen, -⟩ := h.nodes hempty
    have hmem : ∀ x, x ∈ (nodeBlocks (l ++ [(pb, nb)])).toFinset ↔ x ∈ insert pb S :=
      fun x => List.mem_toFinset.trans (hopen.blocks x).symm
    refine ⟨insert rtb (nodeBlocks (l ++ [(pb, nb)])).toFinset, ?_, fun b hb => hnew b ?_⟩
    · rw [Finset.card_insert_of_notMem fun hin => hapart ((hmem rtb).mp hin),
        List.toFinset_card_of_nodup hopen.nodup, length_nodeBlocks, List.length_append, hopen.length,
        List.length_singleton]
      omega
    · rcases Finset.mem_insert.mp hb with rfl | hb
      · exact Set.mem_insert _ _
      · exact Set.mem_insert_of_mem _ ((hmem b).mp hb)

/-- A path that is parsed as a string of live memory takes that many new blocks. -/
theorem PathString.newBlocks {path : Nat} {bytes : List UInt8} (h : PathString a path bytes)
    (hk : KernelHeap a) (hv : validPath bytes) {a' : Arena}
    (hrun : pathParserParsePath path a = .ok root a') : ∃ L : Finset Nat, L.card = pathBlocks bytes ∧
      ∀ b ∈ L, Held a' b ∧ heapEntryIsFree (a.heap.table.entry b) = true := by
  rcases Nat.lt_or_ge bytes.length 65536 with hlen | hlen
  · obtain ⟨-, ⟨hno, -⟩ | ⟨-, -, rtb, first, pb, S, hp⟩⟩ := Runs.value
      (parsePath_runs hk h.str h.nz hlen h.offSlice h.stored fun _ _ => trivial) hrun
    · exact absurd hv hno
    · exact hp.newBlocks
  · exact absurd hrun (h.parse_long hlen)

end

/-! ## 2. A call -/

section

variable {f f' f0 : FileState FatFileDescriptor} {p : FatPrivate} {filename fd : Nat} {mode : FileMode}
  {bytes : List UInt8} {move : KernelMove}

/-- A string has one sequence of bytes. -/
theorem PathString.unique {a : Arena} {bytes' : List UInt8} (h : PathString a filename bytes)
    (h' : PathString a filename bytes') : bytes = bytes' :=
  h.str.unique h'.str h.nz h'.nz

/-- **Opening a valid path** leaves the blocks of the path behind, and none of them is an open file's. -/
theorem fsOpen_leaves (hw : Working f p) (hpath : PathString f.sys.arena filename bytes)
    (hv : validPath bytes) (h : fsOpen fileSystemOf filename mode f = .ok fd f') :
    ∃ L : Finset Nat, L.card = pathBlocks bytes ∧ ∀ b ∈ L, Held f'.sys.arena b ∧
      b ∉ openObjects f' ∧ heapEntryIsFree (f.sys.arena.heap.table.entry b) = true := by
  obtain ⟨root, a, hparse, hreads, -, hcase⟩ := fsOpen_frame hw.table.kernel hw.mounted hpath h
  obtain ⟨L, hcard, hL⟩ := hpath.newBlocks hw.table.kernel hv hparse
  refine ⟨L, hcard, fun b hb => ?_⟩
  obtain ⟨hheld, hfree⟩ := hL b hb
  refine ⟨hreads.touches.held b (Set.notMem_empty b) hheld, ?_, hfree⟩
  have hbefore : b ∉ openObjects f := by
    rintro ⟨j, desc, hj, hx⟩
    have hword := (hw.table.held hj hx).word
    rw [hword] at hfree
    exact absurd hfree (by decide)
  rintro ⟨j, desc', hj, hx⟩
  rcases hcase with ⟨-, hsame, -⟩ | ⟨i, desc, e, d, b', c, -, -, -, hslot, hsame⟩
  · exact hbefore (mem_openObjects (hsame ▸ hj) hx)
  · rw [hsame] at hj
    by_cases hne : j = i
    · rw [hne, Function.update_self] at hj
      obtain rfl := Option.some_inj.mp hj
      exact (hslot.held_objects hx).2 hheld
    · rw [Function.update_of_ne hne] at hj
      exact hbefore (mem_openObjects hj hx)

/-! ## 3. Runs -/

open Classical in
/-- What a move costs: a call of `fs_open` with a valid path the blocks of the path, others nothing. -/
noncomputable def openCost (f : FileState FatFileDescriptor) : KernelMove → Nat
  | .call (.openFile filename _) =>
    if h : ∃ bytes, PathString f.sys.arena filename bytes ∧ validPath bytes then pathBlocks h.choose
    else 0
  | _ => 0

/-- The cost is that of the path that is there. -/
theorem openCost_path (hpath : PathString f.sys.arena filename bytes) (hv : validPath bytes)
    (mode : FileMode) : openCost f (.call (.openFile filename mode)) = pathBlocks bytes := by
  have h : ∃ bytes, PathString f.sys.arena filename bytes ∧ validPath bytes := ⟨bytes, hpath, hv⟩
  have hsame : h.choose = bytes := h.choose_spec.1.unique hpath
  exact (dif_pos h).trans (congrArg pathBlocks hsame)

/-- A move that gives no block back by itself: a call, or a client that leaves what is allocated. -/
def KernelMove.GivesNothing (move : KernelMove) : Prop := ∀ T, move = .client T → T = ∅

/-- Blocks that are taken for good: held, and not an open file's. -/
structure Stuck (p : FatPrivate) (f : FileState FatFileDescriptor) (n : Nat) : Prop where
  working : Working f p
  blocks : ∃ L : Finset Nat, L.card = n ∧ ∀ b ∈ L, Held f.sys.arena b ∧ b ∉ openObjects f

/-- What is stuck stays stuck. -/
theorem stuck_stays (hp : Readable p) (hw : Working f p) (hC : move.GivesNothing)
    (hstep : KernelStep f move f') {b : Nat} (hb : Held f.sys.arena b ∧ b ∉ openObjects f) :
    Held f'.sys.arena b ∧ b ∉ openObjects f' := by
  refine ⟨hstep.holds hp hw hb.1 hb.2 fun T hT => ?_, fun hin => ?_⟩
  · rw [hC T hT]
    exact Set.notMem_empty b
  · exact hb.2 ((hstep.keeps hp hw).objects b hin hb.1)

/-- **Each move pays its cost.** -/
theorem Stuck.step (hp : Readable p) {n : Nat} (h : Stuck p f n) (hC : move.GivesNothing)
    (hstep : KernelStep f move f') : Stuck p f' (n + openCost f move) := by
  obtain ⟨hw, L, hcard, hL⟩ := h
  have hstay := fun b hb => stuck_stays hp hw hC hstep (hL b hb)
  refine ⟨(hstep.keeps hp hw).working, ?_⟩
  by_cases hcost : openCost f move = 0
  · rw [hcost]
    exact ⟨L, hcard, hstay⟩
  -- a valid path has been opened
  obtain ⟨filename, mode, rfl, bytes, hpath, hvalid⟩ : ∃ filename mode,
      move = .call (.openFile filename mode) ∧
      ∃ bytes, PathString f.sys.arena filename bytes ∧ validPath bytes := by
    unfold openCost at hcost
    split at hcost
    · next filename mode =>
      by_cases hv : ∃ bytes, PathString f.sys.arena filename bytes ∧ validPath bytes
      · exact ⟨filename, mode, rfl, hv⟩
      · exact absurd (dif_neg hv) hcost
    · exact absurd rfl hcost
  cases hstep with
  | call hpromised hrun =>
    obtain ⟨fd, hopen, -⟩ := (bind_pure_ok_iff _ _ _ _ _).mp hrun
    obtain ⟨N, hNcard, hN⟩ := fsOpen_leaves hw hpath hvalid hopen
    have hdisjoint : Disjoint L N := by
      refine Finset.disjoint_left.mpr fun b hb hbN => ?_
      have hfree := (hN b hbN).2.2
      rw [(hL b hb).1.word] at hfree
      exact absurd hfree (by decide)
    refine ⟨L ∪ N, ?_, fun b hb => ?_⟩
    · rw [Finset.card_union_of_disjoint hdisjoint, hcard, hNcard, openCost_path hpath hvalid]
    · rcases Finset.mem_union.mp hb with hb | hb
      · exact hstay b hb
      · exact ⟨(hN b hb).1, (hN b hb).2.1⟩

end

/-- `0:/a` costs three blocks. -/
theorem pathBlocks_a : pathBlocks (pathOf 0 [[97]]) = 3 := by
  have hsplit : partSplit ((pathOf 0 [[97]]).drop 3) = ⟨[[97]], [], true⟩ :=
    partSplit_whole (Or.inl (by decide))
  unfold pathBlocks
  rw [hsplit]
  decide

end KokoOs
