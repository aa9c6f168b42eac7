/-
# What the operations of the heap do to the table

`Heap.lean` transcribes the loops of `heap.c`; this file says once what each of them does, so
that nothing after it unfolds a loop.

* **The scan.**  `heapRequestLoop_spec`: it finds the LOWEST run of free blocks that is long enough,
  or there is none.  Its invariant (`ScanInv`) says that the run it is counting cannot be extended to
  the left, and that no run of the required length ends before.
* **Allocating.**  `heapMalloc_ok`: a call that returns either was for zero blocks (after rounding) and
  wrote the word of block 0, or marked exactly the run it found (`Marked`).  `heapMalloc_error` and
  `heapMalloc_returns` say when it does not return and when it does.
* **Freeing.**  `heapFree_ok`: a call that returns cleared the word of the address and then every word
  behind it for as long as those carry `HEAP_HAS_NEXT`, and zeroed ONE block (`Cleared`).  It panics on
  an address below the heap and on a word that is not the first of an allocation, and on nothing else
  (`heapFree_error`).

The second half of `heapFree_ok` is where the allocator goes wrong, so it is stated for every
table, not only for those the allocator builds.
-/
import KokoOs.Heap

namespace KokoOs

open Bytes

/-! ## 1. The words of the table -/

@[simp] theorem HeapTable.total_setEntry (t : HeapTable) (i : Nat) (e : HeapEntry) :
    (t.setEntry i e).total = t.total := rfl

theorem HeapTable.entry_setEntry (t : HeapTable) (i j : Nat) (e : HeapEntry) :
    (t.setEntry i e).entry j = if j % 2 ^ 30 = i % 2 ^ 30 then e else t.entry j := by
  simp only [HeapTable.setEntry, HeapTable.entry, Function.update_apply]

/-- Indices that differ by a multiple of `2 ^ 30` reach the same word. -/
theorem HeapTable.entry_mod (t : HeapTable) (i : Nat) : t.entry (i % 2 ^ 30) = t.entry i := by
  simp only [HeapTable.entry, Nat.mod_mod]

/-- The words the marking loop writes, by their place in the range. -/
def runEntry (k i : Nat) : HeapEntry := if i = 0 then 0x41 else if i + 1 = k then 0x01 else 0x81

/-! ## 2. The scan -/

/-- The `k` blocks from `b` on are free. -/
def FreeRun (t : HeapTable) (b k : Nat) : Prop := ∀ i < k, heapEntryIsFree (t.entry (b + i)) = true

/-- A free block behind a free run makes it longer. -/
theorem FreeRun.succ {t : HeapTable} {b k : Nat} (h : FreeRun t b k)
    (hfree : heapEntryIsFree (t.entry (b + k)) = true) : FreeRun t b (k + 1) := by
  intro j hj
  rcases Nat.eq_or_lt_of_le (Nat.le_of_lt_succ hj) with rfl | hlt
  · exact hfree
  · exact h j hlt

/-- Each block of a free run is free. -/
theorem FreeRun.free_of_mem {t : HeapTable} {b k i : Nat} (h : FreeRun t b k)
    (hi : b ≤ i ∧ i < b + k) : heapEntryIsFree (t.entry i) = true := by
  obtain ⟨j, rfl⟩ := Nat.exists_eq_add_of_le hi.1
  exact h j (by omega)

/-- A taken block is in no free run. -/
theorem FreeRun.not_mem {t : HeapTable} {b k i : Nat} (h : FreeRun t b k)
    (ht : heapEntryIsFree (t.entry i) = false) : ¬ (b ≤ i ∧ i < b + k) := by
  intro hi
  rw [h.free_of_mem hi] at ht
  cases ht

/-- The invariant of the scan before index `i`: the last `blockCount` blocks form a free run
that cannot be extended to the left, and no run of the required length ends before `i`. -/
structure ScanInv (t : HeapTable) (required i currentBlock blockCount : Nat) : Prop where
  short : blockCount < required
  here : 0 < blockCount → currentBlock + blockCount = i
  inside : blockCount ≤ i
  free : FreeRun t (i - blockCount) blockCount
  maximal : i - blockCount = 0 ∨ heapEntryIsFree (t.entry (i - blockCount - 1)) = false
  none_before : ∀ j, j + required ≤ i → ¬ FreeRun t j required

/-- The scan starts with the empty run. -/
theorem ScanInv.start {t : HeapTable} {required : Nat} (h : 0 < required) :
    ScanInv t required 0 0 0 :=
  { short := h
    here := fun h0 => absurd h0 (by omega)
    inside := Nat.le_refl _
    free := fun i hi => absurd hi (by omega)
    maximal := Or.inl rfl
    none_before := fun j hj => absurd hj (by omega) }

/-- A free block that does not complete the run extends it. -/
theorem ScanInv.extend {t : HeapTable} {required i cur cnt : Nat} (h : ScanInv t required i cur cnt)
    (hfree : heapEntryIsFree (t.entry i) = true) (hne : cnt + 1 ≠ required) :
    ScanInv t required (i + 1) (if cnt = 0 then i else cur) (cnt + 1) := by
  have hlt := h.short
  have hin := h.inside
  have hrun : FreeRun t (i + 1 - (cnt + 1)) (cnt + 1) := by
    rw [Nat.add_sub_add_right]
    refine h.free.succ ?_
    rw [Nat.sub_add_cancel hin]
    exact hfree
  have hmax : i + 1 - (cnt + 1) = 0 ∨
      heapEntryIsFree (t.entry (i + 1 - (cnt + 1) - 1)) = false := by
    rw [Nat.add_sub_add_right]
    exact h.maximal
  refine ⟨by omega, fun _ => ?_, by omega, hrun, hmax, fun j hj => ?_⟩
  · split
    · omega
    · have := h.here (by omega)
      omega
  · rcases Nat.lt_or_ge i (j + required) with hj' | hj'
    · rcases hmax with h0 | ht
      · omega
      · exact fun hrun' => hrun'.not_mem ht (by omega)
    · exact h.none_before j hj'

/-- A taken block starts the run anew. -/
theorem ScanInv.restart {t : HeapTable} {required i cur cnt : Nat}
    (h : ScanInv t required i cur cnt) (htaken : heapEntryIsFree (t.entry i) = false) :
    ScanInv t required (i + 1) 0 0 := by
  have hlt := h.short
  refine ⟨by omega, fun h0 => absurd h0 (by omega), by omega, fun j hj => absurd hj (by omega),
    Or.inr (by simpa using htaken), fun j hj => ?_⟩
  rcases Nat.lt_or_ge i (j + required) with hj' | hj'
  · exact fun hrun => hrun.not_mem htaken (by omega)
  · exact h.none_before j hj'

/-- **First fit.**  The scan returns the lowest run of `required` free blocks below its bound,
or a count that differs from `required` when there is none. -/
theorem heapRequestLoop_spec {t : HeapTable} {required : Nat} :
    ∀ (fuel i cur cnt : Nat), ScanInv t required i cur cnt →
      ((heapRequestLoop t required fuel i cur cnt).2 = required ∧
        (heapRequestLoop t required fuel i cur cnt).1 + required ≤ i + fuel ∧
        FreeRun t (heapRequestLoop t required fuel i cur cnt).1 required ∧
        ∀ j < (heapRequestLoop t required fuel i cur cnt).1, ¬ FreeRun t j required) ∨
      ((heapRequestLoop t required fuel i cur cnt).2 ≠ required ∧
        ∀ j, j + required ≤ i + fuel → ¬ FreeRun t j required)
  | 0, i, cur, cnt, h => Or.inr ⟨Nat.ne_of_lt h.short, h.none_before⟩
  | fuel + 1, i, cur, cnt, h => by
    unfold heapRequestLoop
    by_cases hfree : heapEntryIsFree (t.entry i) = true
    · simp only [hfree, if_true]
      split
      · -- the run is complete, and none ended earlier
        rename_i hcnt
        have hin := h.inside
        have hcur : (if cnt = 0 then i else cur) + required = i + 1 := by
          split
          · omega
          · have := h.here (by omega)
            omega
        refine Or.inl ⟨hcnt, by omega, ?_, fun j hj => h.none_before j (by omega)⟩
        have hstart : (if cnt = 0 then i else cur) = i - cnt := by omega
        rw [hstart, ← hcnt]
        refine h.free.succ ?_
        rw [Nat.sub_add_cancel hin]
        exact hfree
      · rename_i hcnt
        have ih := heapRequestLoop_spec fuel (i + 1) _ _ (h.extend hfree hcnt)
        rw [Nat.add_right_comm, Nat.add_assoc] at ih
        exact ih
    · have htaken : heapEntryIsFree (t.entry i) = false := by simpa using hfree
      have hpos := h.short
      simp only [htaken, Bool.false_eq_true, if_false]
      rw [if_neg (by omega)]
      have ih := heapRequestLoop_spec fuel (i + 1) 0 0 (h.restart htaken)
      rw [Nat.add_right_comm, Nat.add_assoc] at ih
      exact ih

/-! ## 3. Marking -/

/-- The words after the marking loop: those of the range are written, the others are kept. -/
theorem entry_heapMarkLoop (details : MemoryDetails) :
    ∀ (fuel i : Nat) (t : HeapTable), i + fuel ≤ 2 ^ 30 → ∀ x < 2 ^ 30,
      (heapMarkLoop details fuel i t).entry x =
        if i ≤ x ∧ x < i + fuel then heapMarkEntry details x else t.entry x
  | 0, i, t, _, x, _ => by
    rw [if_neg (by omega)]
    rfl
  | fuel + 1, i, t, hi, x, hx => by
    rw [heapMarkLoop, entry_heapMarkLoop details fuel (i + 1) _ (by omega) x hx,
      HeapTable.entry_setEntry]
    rw [Nat.mod_eq_of_lt hx, Nat.mod_eq_of_lt (by omega : i < 2 ^ 30)]
    by_cases hxi : x = i
    · subst hxi
      rw [if_neg (by omega), if_pos rfl, if_pos (by omega)]
    · rw [if_neg hxi]
      by_cases hr : i + 1 ≤ x ∧ x < i + 1 + fuel
      · rw [if_pos hr, if_pos (by omega)]
      · rw [if_neg hr, if_neg (by omega)]

@[simp] theorem total_heapMarkLoop (details : MemoryDetails) :
    ∀ (fuel i : Nat) (t : HeapTable), (heapMarkLoop details fuel i t).total = t.total
  | 0, _, _ => rfl
  | fuel + 1, i, t => by
    rw [heapMarkLoop, total_heapMarkLoop details fuel]
    rfl

/-- The words of a range, by their place in it. -/
theorem heapMarkEntry_eq {details : MemoryDetails} {k i : Nat} (hi : i < k)
    (hend : details.endBlock = details.startBlock + k - 1) :
    heapMarkEntry details (details.startBlock + i) = runEntry k i := by
  unfold heapMarkEntry runEntry
  by_cases h0 : i = 0
  · subst h0
    simp
    decide
  · rw [if_neg (by omega), if_neg h0]
    by_cases hk : i + 1 = k
    · rw [if_neg (by omega), if_pos hk]
      decide
    · rw [if_pos (by omega), if_neg hk]
      decide

/-! ## 4. `heap_malloc` -/

theorem heapAlign_mod (n : Nat) : heapAlignAmountOfBytesRequested n % 4096 = 0 := by
  unfold heapAlignAmountOfBytesRequested
  simp only [kernelHeapBlockSize]
  split <;> omega

/-- Rounding never loses bytes, unless the rounded amount does not fit in 32 bits. -/
theorem le_heapAlign {n : Nat} (hn : n < 2 ^ 32) (h0 : heapAlignAmountOfBytesRequested n ≠ 0) :
    n ≤ heapAlignAmountOfBytesRequested n := by
  unfold heapAlignAmountOfBytesRequested at h0 ⊢
  simp only [kernelHeapBlockSize] at h0 ⊢
  by_cases h : n % 4096 = 0
  · rw [if_pos h]
  · rw [if_neg h] at h0 ⊢
    omega

/-- The number of blocks a request of `n` bytes is for. -/
def blocksOf (n : Nat) : Nat := heapAlignAmountOfBytesRequested n / 4096

theorem blocksOf_pos {n : Nat} (h : heapAlignAmountOfBytesRequested n ≠ 0) : 0 < blocksOf n := by
  have := heapAlign_mod n
  unfold blocksOf
  omega

/-- A request for one to 4096 bytes is a request for one block. -/
theorem blocksOf_small {n : Nat} (h0 : 0 < n) (h : n ≤ 4096) : blocksOf n = 1 := by
  unfold blocksOf heapAlignAmountOfBytesRequested
  simp only [kernelHeapBlockSize]
  split <;> omega

/-- `s'` is `s` with the lowest free run of `k` blocks, at block `b`, marked as an allocation. -/
structure Marked (s s' : Arena) (b k : Nat) : Prop where
  inside : b + k ≤ s.heap.table.total
  free : FreeRun s.heap.table b k
  lowest : ∀ j < b, ¬ FreeRun s.heap.table j k
  startAddress : s'.heap.startAddress = s.heap.startAddress
  total : s'.heap.table.total = s.heap.table.total
  mem : s'.mem = s.mem
  entry : ∀ x < 2 ^ 30, s'.heap.table.entry x =
    if b ≤ x ∧ x < b + k then runEntry k (x - b) else s.heap.table.entry x

/-- **What a call of `heap_malloc` that returns has done**: for an amount that rounds to zero
it returned NULL after writing the word of block 0, whatever that block is; otherwise it marked
the first run that fits and returned its address. -/
theorem heapMalloc_ok {n p : Nat} {s s' : Arena} (ht : s.heap.table.total ≤ 2 ^ 30)
    (h : heapMalloc n s = .ok p s') :
    (heapAlignAmountOfBytesRequested n = 0 ∧ p = 0 ∧
        s' = { s with heap.table := s.heap.table.setEntry 0 0x41 }) ∨
      (heapAlignAmountOfBytesRequested n ≠ 0 ∧
        ∃ b, p = heapGetAddressFromBlock s.heap b ∧ Marked s s' b (blocksOf n)) := by
  unfold heapMalloc heapRequestMemory at h
  simp only [Prog.bind_ok_iff, Prog.get_ok_iff, Prog.modify_ok_iff, Prog.pure_ok_iff] at h
  obtain ⟨details, s1, ⟨s0, s2, ⟨rfl, rfl⟩, hreq⟩, _, s3, rfl, rfl, rfl⟩ := h
  split at hreq
  · rename_i h0
    obtain ⟨rfl, rfl⟩ := (Prog.pure_ok_iff _ _ _ _).mp hreq
    exact Or.inl ⟨h0, rfl, rfl⟩
  · rename_i h0
    split at hreq
    · simp at hreq
    · rename_i hcnt
      obtain ⟨rfl, rfl⟩ := (Prog.pure_ok_iff _ _ _ _).mp hreq
      have hk : 0 < blocksOf n := blocksOf_pos h0
      have hk' : heapAlignAmountOfBytesRequested n / kernelHeapBlockSize = blocksOf n := rfl
      rw [hk'] at hcnt ⊢
      generalize hscan : heapRequestLoop s.heap.table (blocksOf n) s.heap.table.total 0 0 0 = scan
        at hcnt ⊢
      have hspec := heapRequestLoop_spec s.heap.table.total 0 0 0
        (ScanInv.start (t := s.heap.table) hk)
      rw [hscan, Nat.zero_add] at hspec
      rcases hspec with ⟨h2, hin, hfree, hlow⟩ | ⟨h2, -⟩
      · refine Or.inr ⟨h0, scan.1, rfl, hin, hfree, hlow, rfl, ?_, rfl, fun x hx => ?_⟩
        · exact total_heapMarkLoop _ _ _ _
        · have hfuel : scan.1 + scan.2 - 1 + 1 - scan.1 = blocksOf n := by omega
          simp only [hfuel]
          rw [entry_heapMarkLoop _ _ _ _ (by omega) x hx]
          by_cases hr : scan.1 ≤ x ∧ x < scan.1 + blocksOf n
          · rw [if_pos hr, if_pos hr]
            have hx' : x - scan.1 < blocksOf n := by omega
            conv_lhs => rw [← Nat.add_sub_of_le hr.1]
            exact heapMarkEntry_eq (k := blocksOf n) hx' (by simp only; omega)
          · rw [if_neg hr, if_neg hr]
      · exact absurd h2 (by simpa using hcnt)

/-- **`heap_malloc` panics only for want of a run**, and then changes nothing. -/
theorem heapMalloc_error {n : Nat} {s s' : Arena} {e : Halt} (h : heapMalloc n s = .error e s') :
    e = .panic "Not enough memory" ∧ s' = s ∧
      ∀ b, b + blocksOf n ≤ s.heap.table.total → ¬ FreeRun s.heap.table b (blocksOf n) := by
  unfold heapMalloc heapRequestMemory at h
  simp only [Prog.bind_error_iff, Prog.bind_ok_iff, Prog.get_ok_iff, Prog.get_error_iff,
    Prog.modify_error_iff, Prog.pure_error_iff, false_or, or_false, and_false, exists_false] at h
  obtain ⟨s0, s2, ⟨rfl, rfl⟩, hreq⟩ := h
  split at hreq
  · exact ((Prog.pure_error_iff _ _ _ _).mp hreq).elim
  · rename_i h0
    split at hreq
    · rename_i hcnt
      obtain ⟨rfl, rfl⟩ := (Prog.throw_error_iff _ _ _ _).mp hreq
      refine ⟨rfl, rfl, fun b hb => ?_⟩
      have hspec := heapRequestLoop_spec s.heap.table.total 0 0 0
        (ScanInv.start (t := s.heap.table) (blocksOf_pos h0))
      rw [Nat.zero_add] at hspec
      rcases hspec with ⟨h2, -⟩ | ⟨-, hnone⟩
      · exact absurd h2 hcnt
      · exact hnone b hb
    · exact ((Prog.pure_error_iff _ _ _ _).mp hreq).elim

/-- `heap_malloc` returns when there is a run for it. -/
theorem heapMalloc_returns {n b : Nat} {s : Arena} (hin : b + blocksOf n ≤ s.heap.table.total)
    (hfree : FreeRun s.heap.table b (blocksOf n)) : ∃ p s', heapMalloc n s = .ok p s' := by
  cases h : heapMalloc n s with
  | ok p s' => exact ⟨p, s', rfl⟩
  | error e s' => exact absurd hfree ((heapMalloc_error h).2.2 b hin)

/-- `zalloc` requests, and clears what it was given. -/
theorem zalloc_of_ok {n p : Nat} {s s' : Arena} (h : heapMalloc n s = .ok p s') :
    zalloc n s = .ok p ⟨s'.heap, memset s'.mem p 0 n⟩ := by
  unfold zalloc
  exact (Prog.bind_of_ok h _).trans rfl

/-! ## 5. `heap_free` -/

theorem memsetByte_zero (k : Nat) : memsetByte 0 k = 0 := by
  simp [memsetByte]

/-- Clearing whole words with `memset` is filling with zero bytes. -/
theorem memset_zero (m : Mem) (p size : Nat) : memset m p 0 size = fill m p (4 * (size / 4)) 0 := by
  funext x
  simp only [memset, fill, memsetByte_zero]

/-- `s'` is `s` after `m` turns of the freeing loop from word `w` on, zeroing block `b`. -/
structure Cleared (s s' : Arena) (w m b : Nat) : Prop where
  pos : 1 ≤ m
  startAddress : s'.heap.startAddress = s.heap.startAddress
  total : s'.heap.table.total = s.heap.table.total
  mem : s'.mem = fill s.mem (heapGetAddressFromBlock s.heap b) 4096 0
  entry : ∀ x, s'.heap.table.entry x =
    if (x % 2 ^ 30 + 2 ^ 30 - w % 2 ^ 30) % 2 ^ 30 < m then 0 else s.heap.table.entry x
  chain : ∀ j, 1 ≤ j → j < m → heapEntryHasNext (s.heap.table.entry (w + j)) = true

/-- A single turn of the loop. -/
theorem cleared_turn (b w : Nat) (s : Arena) : Cleared s (heapFreeTurn b w s) w 1 b where
  pos := Nat.le_refl 1
  startAddress := rfl
  total := rfl
  mem := memset_zero _ _ _
  entry x := by
    have htable : (heapFreeTurn b w s).heap.table = s.heap.table.setEntry w heapEntryFree := rfl
    rw [htable, HeapTable.entry_setEntry]
    by_cases hx : x % 2 ^ 30 = w % 2 ^ 30
    · rw [if_pos hx, if_pos (by omega)]
    · rw [if_neg hx, if_neg (by omega)]
  chain j h1 h2 := absurd h2 (by omega)

/-- One more turn in front of a loop that starts one word further on. -/
theorem Cleared.cons {s s' : Arena} {w m b : Nat} (hm : m < 2 ^ 30)
    (hnext : heapEntryHasNext ((heapFreeTurn b w s).heap.table.entry (w + 1)) = true)
    (h : Cleared (heapFreeTurn b w s) s' (w + 1) m b) : Cleared s s' w (m + 1) b := by
  have h1 := cleared_turn b w s
  have hkeep : ∀ j, 1 ≤ j → j < m + 1 →
      (heapFreeTurn b w s).heap.table.entry (w + j) = s.heap.table.entry (w + j) := by
    intro j hj1 hj2
    rw [h1.entry, if_neg (by omega)]
  refine ⟨by omega, h.startAddress.trans h1.startAddress, h.total.trans h1.total, ?_, ?_, ?_⟩
  · have haddr : heapGetAddressFromBlock (heapFreeTurn b w s).heap b
        = heapGetAddressFromBlock s.heap b := rfl
    rw [h.mem, h1.mem, haddr, fill_fill]
  · intro x
    rw [h.entry, h1.entry]
    have hpos := h.pos
    by_cases hx : (x % 2 ^ 30 + 2 ^ 30 - (w + 1) % 2 ^ 30) % 2 ^ 30 < m
    · rw [if_pos hx, if_pos (by omega)]
    · rw [if_neg hx]
      by_cases hx1 : (x % 2 ^ 30 + 2 ^ 30 - w % 2 ^ 30) % 2 ^ 30 < 1
      · rw [if_pos hx1, if_pos (by omega)]
      · rw [if_neg hx1, if_neg (by omega)]
  · intro j hj1 hj2
    rw [← hkeep j hj1 hj2]
    obtain ⟨i, rfl⟩ := Nat.exists_eq_add_of_le hj1
    rw [← Nat.add_assoc]
    rcases Nat.eq_zero_or_pos i with rfl | hi
    · exact hnext
    · exact h.chain i hi (by omega)

/-- **The freeing loop**: it clears the word it starts at and then every following word, as
long as those carry `HEAP_HAS_NEXT`, and it stops at the first one that does not. -/
theorem heapFreeLoop_spec (b : Nat) :
    ∀ (fuel w : Nat) (s : Arena), 1 ≤ fuel → fuel ≤ 2 ^ 30 →
      ∃ m, m ≤ fuel ∧ Cleared s (heapFreeLoop b fuel w s) w m b ∧
        (m < fuel → heapEntryHasNext (s.heap.table.entry (w + m)) = false)
  | 0, _, _, h, _ => absurd h (by omega)
  | fuel + 1, w, s, _, hle => by
    have h1 := cleared_turn b w s
    have hone : heapFreeLoop b (fuel + 1) w s =
        if heapEntryHasNext ((heapFreeTurn b w s).heap.table.entry (w + 1)) then
          heapFreeLoop b fuel (w + 1) (heapFreeTurn b w s)
        else heapFreeTurn b w s := rfl
    rw [hone]
    by_cases hnext : heapEntryHasNext ((heapFreeTurn b w s).heap.table.entry (w + 1)) = true
    · rw [if_pos hnext]
      match fuel with
      | 0 =>
        exact ⟨1, Nat.le_refl 1, h1, fun h => absurd h (by omega)⟩
      | fuel + 1 =>
        obtain ⟨m, hm, hc, hstop⟩ :=
          heapFreeLoop_spec b (fuel + 1) (w + 1) (heapFreeTurn b w s) (by omega) (by omega)
        refine ⟨m + 1, by omega, hc.cons (by omega) hnext, fun h => ?_⟩
        have hlast := hstop (by omega)
        rwa [h1.entry, if_neg (by omega), Nat.add_right_comm, Nat.add_assoc] at hlast
    · rw [if_neg hnext]
      refine ⟨1, by omega, h1, fun h => ?_⟩
      have := h1.entry (w + 1)
      rw [if_neg (by omega)] at this
      rw [← this]
      simpa using hnext

/-- **What a call of `heap_free` that returns has done.** -/
theorem heapFree_ok {a : Nat} {s s' : Arena} {u : Unit} (h : heapFree a s = .ok u s') :
    s.heap.startAddress ≤ a ∧
      heapEntryIsFirst (s.heap.table.entry (heapFreeStartBlock s.heap a)) = true ∧
      ∃ m, Cleared s s' (heapFreeStartBlock s.heap a) m (heapFreeStartBlock s.heap a) ∧
        (m < 2 ^ 30 → heapEntryHasNext (s.heap.table.entry (heapFreeStartBlock s.heap a + m)) = false) := by
  unfold heapFree at h
  simp only [Prog.bind_ok_iff, Prog.get_ok_iff] at h
  obtain ⟨s0, s1, ⟨rfl, rfl⟩, h⟩ := h
  split at h
  · simp at h
  · rename_i ha
    split at h
    · simp at h
    · rename_i hfirst
      have hs' := (Prog.set_ok_iff _ _ _ _).mp h
      obtain ⟨m, -, hc, hstop⟩ :=
        heapFreeLoop_spec (heapFreeStartBlock s.heap a) (2 ^ 30) (heapFreeStartBlock s.heap a) s (by decide) (by decide)
      refine ⟨by omega, by simpa using hfirst, m, ?_, hstop⟩
      rw [← hs']
      exact hc

/-- **`heap_free` panics exactly on an address below the heap or a word that is not the first
of an allocation**, and then changes nothing. -/
theorem heapFree_error {a : Nat} {s s' : Arena} {e : Halt} (h : heapFree a s = .error e s') :
    s' = s ∧ (∃ msg, e = .panic msg) ∧
      (a < s.heap.startAddress ∨
        heapEntryIsFirst (s.heap.table.entry (heapFreeStartBlock s.heap a)) = false) := by
  unfold heapFree at h
  simp only [Prog.bind_error_iff, Prog.get_ok_iff, Prog.get_error_iff, false_or] at h
  obtain ⟨s0, s1, ⟨rfl, rfl⟩, h⟩ := h
  split at h
  · rename_i ha
    obtain ⟨rfl, rfl⟩ := (Prog.throw_error_iff _ _ _ _).mp h
    exact ⟨rfl, ⟨_, rfl⟩, Or.inl ha⟩
  · split at h
    · rename_i hfirst
      obtain ⟨rfl, rfl⟩ := (Prog.throw_error_iff _ _ _ _).mp h
      exact ⟨rfl, ⟨_, rfl⟩, Or.inr (by simpa using hfirst)⟩
    · exact ((Prog.set_error_iff _ _ _ _).mp h).elim

end KokoOs
