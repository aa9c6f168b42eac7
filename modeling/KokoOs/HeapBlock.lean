/-
# Requests for one block

Every object of the kernel but its directory buffers fits into one block, so almost every
request is for one.  What such a request does is much simpler than the general case: it takes
the lowest free block (`Took`), and it succeeds as long as there is a free block at all
(`heapMalloc_small_returns`).  So a count of the free blocks (`freeBlocks`) is all that a caller has to
keep, and a request takes exactly one block out of it (`Took.freeBlocks_eq`).

A request for more needs a run of free blocks, of which a count says less.  There is one if fewer
blocks are taken than there are groups of the size of the request, since every group without a run
would have a taken block of its own (`exists_freeRun`).
-/
import KokoOs.HeapInv

namespace KokoOs

open Bytes

/-! ## 1. Free blocks -/

/-- The free blocks of a heap. -/
def freeBlocks (heap : Heap) : Finset Nat :=
  (Finset.range heap.table.total).filter fun i => heapEntryIsFree (heap.table.entry i) = true

theorem mem_freeBlocks {heap : Heap} {b : Nat} : b ∈ freeBlocks heap ↔
    b < heap.table.total ∧ heapEntryIsFree (heap.table.entry b) = true := by
  rw [freeBlocks, Finset.mem_filter, Finset.mem_range]

/-- **A run of `k` blocks is free if fewer blocks are taken than there are groups of `k`.**  Otherwise
every group would have a taken block of its own. -/
theorem exists_freeRun {heap : Heap} {k : Nat} (hk : 0 < k)
    (h : heap.table.total - (freeBlocks heap).card < heap.table.total / k) :
    ∃ b, b + k ≤ heap.table.total ∧ FreeRun heap.table b k := by
  by_contra hno
  have hsub : freeBlocks heap ⊆ Finset.range heap.table.total := Finset.filter_subset _ _
  have hcard := Finset.card_sdiff_of_subset hsub
  rw [Finset.card_range] at hcard
  have hsurj : Set.SurjOn (· / k) (Finset.range heap.table.total \ freeBlocks heap : Finset Nat)
      (Finset.range (heap.table.total / k) : Finset Nat) := by
    intro g hg
    have hg' : g < heap.table.total / k := Finset.mem_range.mp hg
    have hfit : g * k + k ≤ heap.table.total := by
      have := Nat.mul_le_of_le_div k (g + 1) heap.table.total hg'
      rwa [Nat.succ_mul] at this
    have htaken : ¬ FreeRun heap.table (g * k) k := fun hrun => hno ⟨g * k, hfit, hrun⟩
    unfold FreeRun at htaken
    push Not at htaken
    obtain ⟨i, hi, hne⟩ := htaken
    refine ⟨g * k + i, ?_, ?_⟩
    · rw [Finset.mem_coe, Finset.mem_sdiff, Finset.mem_range, mem_freeBlocks]
      exact ⟨by omega, fun hfree => hne hfree.2⟩
    · change (g * k + i) / k = g
      rw [Nat.mul_comm, Nat.mul_add_div hk, Nat.div_eq_of_lt hi, Nat.add_zero]
  have hle := Finset.card_le_card_of_surjOn _ hsurj
  rw [Finset.card_range] at hle
  omega

/-! ## 2. Taking a block -/

/-- `a'` is `a` with the free block `b` taken by a request for one block. -/
structure Took (a a' : Arena) (b : Nat) : Prop where
  inside : b < a.heap.table.total
  free : heapEntryIsFree (a.heap.table.entry b) = true
  startAddress : a'.heap.startAddress = a.heap.startAddress
  total : a'.heap.table.total = a.heap.table.total
  mem : a'.mem = a.mem
  entry : ∀ x < 2 ^ 30, a'.heap.table.entry x = if x = b then 0x41 else a.heap.table.entry x

/-- **A request for one to 4096 bytes that returns has taken a block.** -/
theorem heapMalloc_small {n p : Nat} {a a' : Arena} (h0 : 0 < n) (hn : n ≤ 4096)
    (ht : a.heap.table.total ≤ 2 ^ 30) (h : heapMalloc n a = .ok p a') :
    ∃ b, p = heapGetAddressFromBlock a.heap b ∧ Took a a' b := by
  have hone := blocksOf_small h0 hn
  rcases heapMalloc_ok ht h with ⟨hz, -⟩ | ⟨-, b, hp, hm⟩
  · exact absurd hone (by simp [blocksOf, hz])
  · rw [hone] at hm
    have hin := hm.inside
    refine ⟨b, hp, by omega, hm.free 0 (by omega), hm.startAddress, hm.total, hm.mem, ?_⟩
    intro x hx
    rw [hm.entry x hx]
    by_cases hxb : x = b
    · rw [if_pos hxb, if_pos (by omega), hxb, Nat.sub_self]
      rfl
    · rw [if_neg hxb, if_neg (by omega)]

/-- **Such a request returns as long as there is a free block.** -/
theorem heapMalloc_small_returns {n : Nat} {a : Arena} (h0 : 0 < n) (hn : n ≤ 4096)
    (hfree : (freeBlocks a.heap).Nonempty) : ∃ p a', heapMalloc n a = .ok p a' := by
  obtain ⟨b, hb⟩ := hfree
  obtain ⟨hlt, hfree⟩ := mem_freeBlocks.mp hb
  have hone := blocksOf_small h0 hn
  refine heapMalloc_returns (b := b) (by omega) fun i hi => ?_
  rw [show i = 0 by omega]
  exact hfree

/-- The block that was taken is no longer free, the others are what they were. -/
theorem Took.freeBlocks_eq {a a' : Arena} {b : Nat} (h : Took a a' b)
    (ht : a.heap.table.total ≤ 2 ^ 30) : freeBlocks a'.heap = (freeBlocks a.heap).erase b := by
  ext x
  rw [Finset.mem_erase, mem_freeBlocks, mem_freeBlocks, h.total]
  constructor
  · rintro ⟨hx, hfree⟩
    rw [h.entry x (by omega)] at hfree
    split at hfree
    · exact absurd hfree (by decide)
    · exact ⟨by assumption, hx, hfree⟩
  · rintro ⟨hxb, hx, hfree⟩
    exact ⟨hx, by rw [h.entry x (by omega), if_neg hxb]; exact hfree⟩

theorem Took.card_freeBlocks {a a' : Arena} {b : Nat} (h : Took a a' b)
    (ht : a.heap.table.total ≤ 2 ^ 30) :
    (freeBlocks a'.heap).card + 1 = (freeBlocks a.heap).card := by
  rw [h.freeBlocks_eq ht]
  exact Finset.card_erase_add_one (mem_freeBlocks.mpr ⟨h.inside, h.free⟩)

/-- A request for nothing returns; it costs at most block 0. -/
theorem heapMalloc_zero {a : Arena} (ht : a.heap.table.total ≤ 2 ^ 30) :
    ∃ a', heapMalloc 0 a = .ok 0 a' ∧
      (freeBlocks a.heap).card ≤ (freeBlocks a'.heap).card + 1 := by
  let a' : Arena := { a with heap.table := a.heap.table.setEntry 0 0x41 }
  have hsub : freeBlocks a.heap ⊆ insert 0 (freeBlocks a'.heap) := by
    intro x hx
    obtain ⟨hlt, hfree⟩ := mem_freeBlocks.mp hx
    rw [Finset.mem_insert]
    refine or_iff_not_imp_left.mpr fun hx0 => mem_freeBlocks.mpr ⟨hlt, ?_⟩
    have hentry := HeapTable.entry_setEntry a.heap.table 0 x 0x41
    rw [if_neg (by omega)] at hentry
    exact (congrArg heapEntryIsFree hentry).trans hfree
  exact ⟨a', rfl, (Finset.card_le_card hsub).trans (Finset.card_insert_le _ _)⟩

/-- A block that was taken before is another one. -/
theorem Took.ne_of_taken {a a' : Arena} {b c : Nat} (h : Took a a' b)
    (hc : heapEntryIsFree (a.heap.table.entry c) = false) : c ≠ b := by
  rintro rfl
  rw [h.free] at hc
  exact absurd hc (by decide)

/-- A block that was taken before stays taken. -/
theorem Took.taken {a a' : Arena} {b c : Nat} (h : Took a a' b) (hlt : c < 2 ^ 30)
    (hc : heapEntryIsFree (a.heap.table.entry c) = false) :
    heapEntryIsFree (a'.heap.table.entry c) = false := by
  rw [h.entry c hlt, if_neg (h.ne_of_taken hc)]
  exact hc

/-- The new block is taken. -/
theorem Took.here {a a' : Arena} {b : Nat} (h : Took a a' b) (ht : a.heap.table.total ≤ 2 ^ 30) :
    a'.heap.table.entry b = 0x41 := by
  have := h.inside
  rw [h.entry b (by omega), if_pos rfl]

/-! ## 3. Addresses of blocks -/

/-- Blocks of an aligned heap are aligned. -/
theorem blockAddress_aligned {heap : Heap} (hs : heap.startAddress % 4096 = 0) (b : Nat) :
    heapGetAddressFromBlock heap b % 4096 = 0 := by
  rw [heapGetAddressFromBlock_eq]
  omega

theorem blockAddress_lt (heap : Heap) (b : Nat) : heapGetAddressFromBlock heap b < 2 ^ 32 := by
  rw [heapGetAddressFromBlock_eq]
  omega

/-- Different blocks have different addresses. -/
theorem blockAddress_inj {heap : Heap} {b c : Nat} (hb : b < 2 ^ 20) (hc : c < 2 ^ 20)
    (h : heapGetAddressFromBlock heap b = heapGetAddressFromBlock heap c) : b = c := by
  simp only [heapGetAddressFromBlock_eq] at h
  omega

/-- The address of a block depends on where the heap starts only. -/
theorem blockAddress_congr {h h' : Heap} (hs : h'.startAddress = h.startAddress) (b : Nat) :
    heapGetAddressFromBlock h' b = heapGetAddressFromBlock h b := by
  simp only [heapGetAddressFromBlock_eq, hs]

end KokoOs
