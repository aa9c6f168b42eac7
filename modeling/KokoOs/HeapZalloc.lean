/-
# What `zalloc` clears

`zalloc` clears its memory with `memset`, which stores whole words: of `n` bytes it clears
`4 * (n / 4)`.  The rest keeps what it held, which is up to earlier owners of the block, since
`heap_free` wipes the first block of an allocation only, and up to what was in memory before there was
a heap.  And for an amount that wraps around to a request for nothing it clears memory from NULL on.

`zalloc_clears_iff` says for which amounts every history and every memory are safe: the whole words
that do not wrap around.  The other direction needs one bad history for each other amount.  For a
tail it is the empty one, over memory that is not zero; for an amount that wraps around any history
will do, and the largest heap serves all the rest (`heapMalloc_largest`).

The string of a file of 82 bytes, with a terminator in byte 83, is such an amount: the terminator is not
cleared (`zalloc_leaves_tail`).
-/
import KokoOs.HeapNull

namespace KokoOs

open Bytes Runs

/-! ## 1. What `zalloc` should do -/

/-- Whenever `zalloc(n)` returns, the `n` bytes are zero, and outside of the blocks of the allocation
no byte has changed. -/
def ZallocClears (a : Arena) (n : Nat) : Prop := ∀ p a', zalloc n a = .ok p a' →
  (∀ i < n, a'.mem (p + i) = 0) ∧
    ∀ x, ¬ (p ≤ x ∧ x < p + 4096 * blocksOf n) → a'.mem x = a.mem x

/-- `zalloc` is `malloc`, and whole words filled with zeros. -/
theorem zalloc_ok_iff {n p : Nat} {a a' : Arena} : zalloc n a = .ok p a' ↔
    ∃ a1, heapMalloc n a = .ok p a1 ∧ a' = ⟨a1.heap, fill a1.mem p (4 * (n / 4)) 0⟩ := by
  constructor
  · intro h
    obtain ⟨q, a1, hm, h⟩ := (Prog.bind_ok_iff _ _ _ _ _).mp h
    obtain ⟨u, a2, hmod, h⟩ := (Prog.bind_ok_iff _ _ _ _ _).mp h
    obtain rfl := (Prog.modify_ok_iff _ _ _ _).mp hmod
    obtain ⟨rfl, rfl⟩ := (Prog.pure_ok_iff _ _ _ _).mp h
    exact ⟨a1, hm, by rw [memset_zero]⟩
  · rintro ⟨a1, hm, rfl⟩
    rw [zalloc_of_ok hm, memset_zero]

/-- A request does not touch memory. -/
theorem heapMalloc_mem {n p : Nat} {a a' : Arena} (ht : a.heap.table.total ≤ 2 ^ 30)
    (h : heapMalloc n a = .ok p a') : a'.mem = a.mem := by
  rcases heapMalloc_ok ht h with ⟨-, -, rfl⟩ | ⟨-, b, -, hm⟩
  · rfl
  · exact hm.mem

/-! ## 2. When it does -/

/-- Whole words are cleared, and nothing else is. -/
theorem zallocClears_of_words {a : Arena} {n : Nat} (ht : a.heap.table.total ≤ 2 ^ 30) (h1 : 1 ≤ n)
    (hwords : n % 4 = 0) (hn : n ≤ 2 ^ 32 - 4096) : ZallocClears a n := by
  intro p a' h
  obtain ⟨a1, hm, rfl⟩ := zalloc_ok_iff.mp h
  have hall : 4 * (n / 4) = n := by omega
  have hroom : n ≤ 4096 * blocksOf n := by
    rw [(blocksOf_eq_ceil h1 hn).1]
    omega
  refine ⟨fun i hi => fill_of_mem (by omega), fun x hx => ?_⟩
  dsimp only
  rw [fill_of_not_mem (by omega), heapMalloc_mem ht hm]

/-- Of any other amount the last byte is left as it was. -/
theorem not_zallocClears_of_tail {a a1 : Arena} {n p : Nat} (ht : a.heap.table.total ≤ 2 ^ 30)
    (hones : ∀ x, a.mem x = 1) (htail : n % 4 ≠ 0) (hm : heapMalloc n a = .ok p a1) :
    ¬ ZallocClears a n := by
  intro hclears
  have hlast := (hclears p _ (zalloc_ok_iff.mpr ⟨a1, hm, rfl⟩)).1 (n - 1) (by omega)
  dsimp only at hlast
  rw [fill_of_not_mem (by omega), heapMalloc_mem ht hm, hones] at hlast
  exact absurd hlast (by decide)

/-- An amount that wraps around has memory from NULL on cleared, of which nothing was allocated. -/
theorem not_zallocClears_of_wrap {a : Arena} {n : Nat} (hones : ∀ x, a.mem x = 1) (hn : n < 2 ^ 32)
    (hwrap : 2 ^ 32 - 4096 < n) : ¬ ZallocClears a n := by
  intro hclears
  have halign := (heapAlign_eq_zero_iff hn).mpr (Or.inr hwrap)
  have hnone : blocksOf n = 0 := by
    unfold blocksOf
    rw [halign]
  have hfirst := (hclears 0 _ (zalloc_ok_iff.mpr ⟨_, heapMalloc_of_align_zero halign, rfl⟩)).2 0 (by omega)
  dsimp only at hfirst
  rw [fill_of_mem (by omega), hones] at hfirst
  exact absurd hfirst (by decide)

/-- The largest heap that does not wrap around: it serves every amount that does not either. -/
theorem heapMalloc_largest {n : Nat} (hn : n ≤ 2 ^ 32 - 4096) (mem : Mem) :
    ∃ p a1, heapMalloc n (heapAt 4096 (2 ^ 20 - 1) mem).arena = .ok p a1 := by
  refine heapMalloc_returns (b := 0) ?_ fun i hi => ?_
  · change 0 + blocksOf n ≤ 2 ^ 20 - 1
    unfold blocksOf heapAlignAmountOfBytesRequested
    simp only [kernelHeapBlockSize]
    split <;> omega
  · change heapEntryIsFree 0 = true
    decide

/-- **What `zalloc` clears.**  After every history from a fresh heap over any memory, `zalloc(n)` has
cleared all that it returns, and nothing else, if and only if `n` is a number of whole words and does
not wrap around. -/
theorem zalloc_clears_iff {n : Nat} (h1 : 1 ≤ n) (hn : n < 2 ^ 32) :
    (∀ (s s' : HeapState) (tr : List (HeapState × HeapCall)), FreshHeap s → Run HeapStep s tr s' →
      ZallocClears s'.arena n) ↔ n % 4 = 0 ∧ n ≤ 2 ^ 32 - 4096 := by
  constructor
  · intro hall
    have hfresh : FreshHeap (heapAt 4096 (2 ^ 20 - 1) fun _ => 1) :=
      freshHeap_at (by decide) (by decide) (by decide) (by decide) _
    have hclears := hall _ _ _ hfresh (Run.refl _)
    have hsmall : n ≤ 2 ^ 32 - 4096 := by
      by_contra hwrap
      exact not_zallocClears_of_wrap (fun _ => rfl) hn (by omega) hclears
    obtain ⟨p, a1, hm⟩ := heapMalloc_largest hsmall fun _ => 1
    refine ⟨by_contra fun htail => ?_, hsmall⟩
    exact not_zallocClears_of_tail (by decide) (fun _ => rfl) htail hm hclears
  · rintro ⟨hwords, hsmall⟩ s s' tr hs hrun
    have hT := (heapInv_of_run hs hrun).total_lt
    exact zallocClears_of_words (by omega) h1 hwords hsmall

/-- A buffer of 84 bytes is cleared in a heap of four blocks over memory that is not zero. -/
theorem zalloc_clears_words : ZallocClears (heapAt 4096 4 fun _ => 1).arena 84 := by
  have hall := (zalloc_clears_iff (n := 84) (by decide) (by decide)).mpr (by decide)
  exact hall _ _ _ (freshHeap_at (by decide) (by decide) (by decide) (by decide) _) (Run.refl _)

/-- **A file of 82 bytes and its terminator**, in the heap of the kernel over memory that is not zero:
the terminator is not. -/
theorem zalloc_leaves_tail : ∃ s, FreshHeap s ∧ ¬ ZallocClears s.arena 83 := by
  refine ⟨heapAt memoryHeapStartAddress 25600 fun _ => 1,
    freshHeap_at (by decide) (by decide) (by decide) (by decide) _, ?_⟩
  obtain ⟨p, a1, hm⟩ := heapMalloc_returns (n := 83) (b := 0)
    (s := (heapAt memoryHeapStartAddress 25600 fun _ => 1).arena) (by decide) fun i hi => by
      change heapEntryIsFree 0 = true
      decide
  exact not_zallocClears_of_tail (by decide) (fun _ => rfl) (by decide) hm

end KokoOs
