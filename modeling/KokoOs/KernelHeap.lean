/-
# The kernel's heap, and what calls leave alone in it

`memory_init` builds one heap, of 25600 blocks at 16 MiB.  Almost every function above it
allocates something, works with it, and gives some of it back; what its callers rely on is that
nothing they hold is touched.  `Frame W` states that: blocks that were taken keep their words,
and memory outside the blocks that were free is changed inside `W` only.  It is reflexive and
transitive, so it goes through sequences of calls.

* **Allocating.**  `KernelHeap.malloc`: an allocation either was for nothing, or has added a run of blocks
  that were free, of its size (`Added`).
* **Locals.**  `KernelHeap.temporary`: an allocation that is given back by the same function, of any size.
  Even though the last block of a longer one is lost, no block of anybody else is, so the call as a
  whole is framed by what it wrote elsewhere.
* **Giving back.**  `KernelHeap.free_block`: a block that was allocated on its own is free again, and of the
  other words only some that carry `HEAP_HAS_NEXT` are cleared.

The histories of `HeapInv.lean` keep a list of the live allocations; here there is none, for the kernel's
functions know their own objects only.  What is needed of the invariant is the part that speaks about
the words (`HeapInv.forget`).
-/
import KokoOs.HeapBlock
import KokoOs.HeapFree

namespace KokoOs

open Bytes

/-! ## 1. The kernel's heap -/

/-- A well-formed heap where and as large as `memory_init` makes it. -/
structure KernelHeap (a : Arena) : Prop where
  inv : HeapInv ⟨a, []⟩
  start : a.heap.startAddress = memoryHeapStartAddress
  total : a.heap.table.total = 25600

/-- Well-formedness of the heap does not depend on the contents of memory. -/
theorem KernelHeap.congr {a a' : Arena} (h : KernelHeap a) (hheap : a'.heap = a.heap) :
    KernelHeap a' := by
  obtain ⟨heap, mem⟩ := a
  obtain ⟨heap', mem'⟩ := a'
  obtain rfl : heap' = heap := hheap
  exact ⟨⟨h.inv.start_lt, h.inv.start_aligned, h.inv.total_pos, h.inv.total_lt, h.inv.block_zero,
    h.inv.inner, fun al hal => absurd hal (by simp), List.Pairwise.nil⟩, h.start, h.total⟩

/-- An invariant with live allocations is one without. -/
theorem HeapInv.forget {a : Arena} {live : List Allocation} (h : HeapInv ⟨a, live⟩) :
    HeapInv ⟨a, []⟩ :=
  ⟨h.start_lt, h.start_aligned, h.total_pos, h.total_lt, h.block_zero, h.inner,
    fun al hal => absurd hal (by simp), List.Pairwise.nil⟩

/-- The blocks of the kernel's heap do not wrap around. -/
theorem KernelHeap.address {a : Arena} (h : KernelHeap a) {b : Nat} (hb : b < 25600) :
    heapGetAddressFromBlock a.heap b = memoryHeapStartAddress + 4096 * b := by
  rw [heapGetAddressFromBlock_eq, h.start]
  simp only [memoryHeapStartAddress]
  omega

/-- `heap_free` finds every block of the kernel's heap. -/
theorem KernelHeap.freeStartBlock {a : Arena} (h : KernelHeap a) {b : Nat} (hb : b < 25600) :
    heapFreeStartBlock a.heap (memoryHeapStartAddress + 4096 * b) = b := by
  simp only [heapFreeStartBlock, heapBlockOfAddress, h.start, memoryHeapStartAddress,
    kernelHeapBlockSize]
  split
  · rw [if_pos (by omega)]
    omega
  · omega

/-- The kernel's heap right after `memory_init`, over the memory `m`. -/
def freshKernel (m : Mem) : Arena := ⟨(newHeap 25600).arena.heap, m⟩

theorem freshKernel_kernelHeap (m : Mem) : KernelHeap (freshKernel m) := by
  have h : KernelHeap (newHeap 25600).arena :=
    ⟨(freshHeap_new (by decide) (by decide)).inv.1, rfl, rfl⟩
  exact h.congr rfl

theorem freshKernel_free (m : Mem) : (freeBlocks (freshKernel m).heap).card = 25600 := by
  have hall : freeBlocks (freshKernel m).heap = Finset.range 25600 :=
    Finset.filter_true_of_mem fun _ _ => (by decide : heapEntryIsFree 0 = true)
  rw [hall, Finset.card_range]

/-! ## 2. Frames -/

/-- The address lies in a block that is free. -/
def InFree (a : Arena) (x : Nat) : Prop :=
  ∃ b < a.heap.table.total, heapEntryIsFree (a.heap.table.entry b) = true ∧
    heapGetAddressFromBlock a.heap b ≤ x ∧ x < heapGetAddressFromBlock a.heap b + 4096

/-- Memory above the heap is not in a block of it. -/
theorem not_inFree_above {a : Arena} (hk : KernelHeap a) {x : Nat} (hx : 0x10000000 ≤ x) :
    ¬ InFree a x := by
  rintro ⟨b, hb, -, -, hhi⟩
  rw [hk.total] at hb
  rw [hk.address hb] at hhi
  simp only [memoryHeapStartAddress] at hhi
  omega

/-- Blocks that were taken keep their words, and memory outside the free blocks is changed
inside `W` only. -/
structure Frame (W : Set Nat) (a a' : Arena) : Prop where
  startAddress : a'.heap.startAddress = a.heap.startAddress
  total : a'.heap.table.total = a.heap.table.total
  taken : ∀ b < a.heap.table.total, heapEntryIsFree (a.heap.table.entry b) = false →
    a'.heap.table.entry b = a.heap.table.entry b
  mem : ∀ x, ¬ InFree a x → x ∉ W → a'.mem x = a.mem x

theorem Frame.refl (W : Set Nat) (a : Arena) : Frame W a a :=
  ⟨rfl, rfl, fun _ _ _ => rfl, fun _ _ _ => rfl⟩

/-- A block that is free after a framed call was free before. -/
theorem Frame.inFree {W : Set Nat} {a a' : Arena} (h : Frame W a a') {x : Nat}
    (hx : InFree a' x) : InFree a x := by
  obtain ⟨b, hb, hfree, hlo, hhi⟩ := hx
  rw [h.total] at hb
  rw [blockAddress_congr h.startAddress] at hlo hhi
  refine ⟨b, hb, ?_, hlo, hhi⟩
  by_contra hne
  rw [h.taken b hb (by simpa using hne)] at hfree
  exact hne hfree

theorem Frame.trans {W : Set Nat} {a a' a'' : Arena} (h : Frame W a a') (h' : Frame W a' a'') :
    Frame W a a'' where
  startAddress := h'.startAddress.trans h.startAddress
  total := h'.total.trans h.total
  taken b hb htaken := by
    have h1 := h.taken b hb htaken
    rw [h'.taken b (h.total ▸ hb) (by rw [h1]; exact htaken), h1]
  mem x hx hW := (h'.mem x (fun hc => hx (h.inFree hc)) hW).trans (h.mem x hx hW)

theorem Frame.mono {W W' : Set Nat} {a a' : Arena} (h : Frame W a a') (hW : W ⊆ W') :
    Frame W' a a' :=
  ⟨h.startAddress, h.total, h.taken, fun x hx hx' => h.mem x hx fun hc => hx' (hW hc)⟩

/-- Storing bytes is framed by where they are stored. -/
theorem Frame.store {W : Set Nat} (a : Arena) (m : Mem) (h : ∀ x, x ∉ W → m x = a.mem x) :
    Frame W a ⟨a.heap, m⟩ :=
  ⟨rfl, rfl, fun _ _ _ => rfl, fun x _ hW => h x hW⟩

/-! ## 3. Allocating -/

/-- What an allocation adds: a run of blocks that were free, and nothing else. -/
structure Added (a a' : Arena) (b k : Nat) : Prop where
  kernel : KernelHeap a'
  inside : b + k ≤ 25600
  free : ∀ i < k, heapEntryIsFree (a.heap.table.entry (b + i)) = true
  mem : a'.mem = a.mem
  frame : Frame ∅ a a'
  first : a'.heap.table.entry b = 0x41
  taken : ∀ i < k, heapEntryIsFree (a'.heap.table.entry (b + i)) = false

/-- **An allocation** either was for nothing, or has added a run of blocks of its size. -/
theorem KernelHeap.malloc {a a' : Arena} (h : KernelHeap a) {n p : Nat} (hn : n < 2 ^ 32)
    (hm : heapMalloc n a = .ok p a') :
    (heapAlignAmountOfBytesRequested n = 0 ∧ p = 0 ∧ KernelHeap a' ∧ a'.mem = a.mem ∧
        Frame ∅ a a') ∨
      ∃ b, p = memoryHeapStartAddress + 4096 * b ∧ 0 < blocksOf n ∧ n ≤ 4096 * blocksOf n ∧
        Added a a' b (blocksOf n) := by
  have hT := h.total
  have hinv := (HeapStep.malloc hn hm).inv h.inv
  rcases heapMalloc_ok (by omega) hm with ⟨h0, rfl, rfl⟩ | ⟨h0, b, rfl, hmarked⟩
  · refine Or.inl ⟨h0, rfl, ⟨hinv.forget, h.start, hT⟩, rfl, rfl, rfl, fun x hx htaken => ?_,
      fun _ _ _ => rfl⟩
    have hset := HeapTable.entry_setEntry a.heap.table 0 x 0x41
    by_cases hx0 : x = 0
    · subst hx0
      rw [if_pos rfl] at hset
      refine hset.trans ?_
      refine (h.inv.block_zero.resolve_left fun hz => ?_).symm
      have hz' : a.heap.table.entry 0 = 0 := hz
      rw [hz'] at htaken
      exact absurd htaken (by decide)
    · rw [if_neg (by omega)] at hset
      exact hset
  · have hpos := blocksOf_pos h0
    have hin := hmarked.inside
    have hal := heapAlign_mod n
    have hfit := le_heapAlign hn h0
    have hsize : n ≤ 4096 * blocksOf n := by
      unfold blocksOf
      omega
    refine Or.inr ⟨b, h.address (by omega), hpos, hsize,
      ⟨hinv.forget, hmarked.startAddress.trans h.start, hmarked.total.trans hT⟩, by omega,
      hmarked.free, hmarked.mem, ⟨hmarked.startAddress, hmarked.total, ?_, ?_⟩, ?_, ?_⟩
    · intro x hx htaken
      rw [hmarked.entry x (by omega), if_neg (FreeRun.not_mem hmarked.free htaken)]
    · intro x _ _
      rw [hmarked.mem]
    · rw [hmarked.entry b (by omega), if_pos (by omega), Nat.sub_self]
      rfl
    · intro i hi
      rw [hmarked.entry (b + i) (by omega), if_pos (by omega)]
      exact runEntry_taken _ _

/-- The bytes of an added run were in free blocks. -/
theorem Added.inFree {a a' : Arena} (h : KernelHeap a) {b k : Nat} (hadd : Added a a' b k) {x : Nat}
    (h1 : memoryHeapStartAddress + 4096 * b ≤ x)
    (h2 : x < memoryHeapStartAddress + 4096 * (b + k)) : InFree a x := by
  have hin := hadd.inside
  simp only [memoryHeapStartAddress] at h1 h2
  have hfree : heapEntryIsFree (a.heap.table.entry ((x - 0x01000000) / 4096)) = true :=
    FreeRun.free_of_mem hadd.free ⟨by omega, by omega⟩
  refine ⟨(x - 0x01000000) / 4096, by rw [h.total]; omega, hfree, ?_, ?_⟩
  · rw [h.address (by omega)]
    simp only [memoryHeapStartAddress]
    omega
  · rw [h.address (by omega)]
    simp only [memoryHeapStartAddress]
    omega

/-- **An allocation that the same function gives back.**  In between, memory may have changed;
nothing that was taken before the allocation is affected. -/
theorem KernelHeap.temporary {a a1 a2 a3 : Arena} (h : KernelHeap a) {n p : Nat} (hn : n < 2 ^ 32)
    (hm : heapMalloc n a = .ok p a1) (hf : heapFree p a2 = .ok () a3)
    (hheap : a2.heap = a1.heap) :
    KernelHeap a3 ∧ a3.mem = fill a2.mem p 4096 0 ∧
      a3.heap.startAddress = a.heap.startAddress ∧ a3.heap.table.total = a.heap.table.total ∧
      (∀ x < a.heap.table.total, heapEntryIsFree (a.heap.table.entry x) = false →
        a3.heap.table.entry x = a.heap.table.entry x) ∧
      ∃ b, p = memoryHeapStartAddress + 4096 * b ∧ 0 < blocksOf n ∧ n ≤ 4096 * blocksOf n ∧
        Added a a1 b (blocksOf n) := by
  have hinv1 := (HeapStep.malloc hn hm).inv h.inv
  obtain ⟨hstart, -, m, hc, -⟩ := heapFree_ok hf
  rcases h.malloc hn hm with ⟨-, rfl, hk1, -, -⟩ | ⟨b, hp, hpos, hfits, hadd⟩
  · -- NULL is below the heap, so it cannot have been freed
    rw [hheap, hk1.start] at hstart
    exact absurd hstart (by decide)
  · have hp0 : p ≠ 0 := by
      rw [hp]
      simp only [memoryHeapStartAddress]
      omega
    rw [if_neg hp0] at hinv1
    have hinv2 : HeapInv ⟨a2, [⟨p, n⟩]⟩ := by
      obtain ⟨heap2, mem2⟩ := a2
      obtain rfl : heap2 = a1.heap := hheap
      exact ⟨hinv1.start_lt, hinv1.start_aligned, hinv1.total_pos, hinv1.total_lt,
        hinv1.block_zero, hinv1.inner, fun al hal => ⟨(hinv1.shows al hal).placed,
          (hinv1.shows al hal).pos, (hinv1.shows al hal).fits, (hinv1.shows al hal).inside,
          (hinv1.shows al hal).words, (hinv1.shows al hal).single⟩, hinv1.apart⟩
    have hal : (⟨p, n⟩ : Allocation) ∈ [(⟨p, n⟩ : Allocation)] := List.mem_singleton_self _
    obtain ⟨hs3, ht3, hentry⟩ := free_live hinv2 hal hf
    have hin := hadd.inside
    have hblock : (⟨p, n⟩ : Allocation).block a2.heap = b := by
      simp only [Allocation.block, hheap, hadd.kernel.start, hp, memoryHeapStartAddress]
      omega
    have hreach : (⟨p, n⟩ : Allocation).Reached a2.heap := by
      rw [Allocation.Reached, hblock, hheap, hadd.kernel.start]
      simp only [memoryHeapStartAddress]
      omega
    have hk3 : KernelHeap a3 := by
      refine ⟨(hinv2.free hal hf).forget, ?_, ?_⟩
      · rw [hs3, hheap]
        exact hadd.kernel.start
      · rw [ht3, hheap]
        exact hadd.kernel.total
    have hmem : a3.mem = fill a2.mem p 4096 0 := by
      rw [hc.mem, freeStartBlock_of_reached (hinv2.shows _ hal).placed hreach, hblock, hheap,
        hadd.kernel.address (by omega), hp]
    refine ⟨hk3, hmem, hk3.start.trans h.start.symm, hk3.total.trans h.total.symm, ?_,
      b, hp, hpos, hfits, hadd⟩
    intro x hx htaken
    rw [hentry x (by rw [hheap, hadd.kernel.total, ← h.total]; exact hx), if_neg, hheap]
    · exact hadd.frame.taken x hx htaken
    · rintro ⟨-, h1, h2⟩
      rw [hblock] at h1 h2
      have hrel := released_le hpos
      have h2' : x < b + released (blocksOf n) := h2
      exact FreeRun.not_mem hadd.free htaken ⟨h1, by omega⟩

/-- Giving back an address that was just allocated does not panic. -/
theorem Added.free_returns {a a1 : Arena} {b k : Nat} (hadd : Added a a1 b k) (hk : 0 < k)
    (m : Mem) : ∃ a3, heapFree (memoryHeapStartAddress + 4096 * b) ⟨a1.heap, m⟩ = .ok () a3 := by
  have hin := hadd.inside
  have hidx := hadd.kernel.freeStartBlock (b := b) (by omega)
  refine heapFree_returns ?_ ?_
  · exact hadd.kernel.start.symm ▸ Nat.le_add_right _ _
  · change heapEntryIsFirst (a1.heap.table.entry (heapFreeStartBlock a1.heap _)) = true
    rw [hidx, hadd.first]
    decide

/-! ## 4. Giving a block back -/

/-- **Giving back block `b`**: its word and its bytes are cleared, and of the other words only
some that carry `HEAP_HAS_NEXT`. -/
theorem KernelHeap.free_block {a a' : Arena} (h : KernelHeap a) {b : Nat} (hb : b < 25600)
    (hf : heapFree (memoryHeapStartAddress + 4096 * b) a = .ok () a') :
    KernelHeap a' ∧ a'.mem = fill a.mem (memoryHeapStartAddress + 4096 * b) 4096 0 ∧
      a'.heap.table.entry b = 0 ∧
      (∀ x < 25600, a'.heap.table.entry x = 0 ∨
        a'.heap.table.entry x = a.heap.table.entry x) ∧
      ∀ x < 25600, x ≠ b → heapEntryHasNext (a.heap.table.entry x) = false →
        a'.heap.table.entry x = a.heap.table.entry x := by
  obtain ⟨-, -, m, hc, hstop⟩ := heapFree_ok hf
  rw [h.freeStartBlock hb] at hc hstop
  have hpos := hc.pos
  have hw := hc.no_wrap h.inv.block_zero
  have hentry : ∀ x < 25600, a'.heap.table.entry x =
      if b ≤ x ∧ x < b + m then 0 else a.heap.table.entry x := by
    intro x hx
    rw [hc.entry]
    by_cases hr : b ≤ x ∧ x < b + m
    · rw [if_pos hr, if_pos (by omega)]
    · rw [if_neg hr, if_neg (by omega)]
  have hinner : ∀ i, i + 1 < 25600 → heapEntryHasNext (a.heap.table.entry (i + 1)) = true →
      a.heap.table.entry i = 0x41 ∨ a.heap.table.entry i = 0x81 := by
    intro i hi hnext
    exact h.inv.inner i (by change i + 1 < a.heap.table.total; rw [h.total]; exact hi) hnext
  refine ⟨⟨⟨?_, ?_, ?_, ?_, ?_, ?_, fun al hal => absurd hal (by simp), List.Pairwise.nil⟩,
    hc.startAddress.trans h.start, hc.total.trans h.total⟩, ?_, ?_, fun x hx => ?_,
    fun x hx hxb hnext => ?_⟩
  · exact hc.startAddress.symm ▸ h.inv.start_lt
  · exact hc.startAddress.symm ▸ h.inv.start_aligned
  · exact hc.total.symm ▸ h.inv.total_pos
  · exact hc.total.symm ▸ h.inv.total_lt
  · change a'.heap.table.entry 0 = 0 ∨ a'.heap.table.entry 0 = 0x41
    rw [hentry 0 (by omega)]
    split
    · exact Or.inl rfl
    · exact h.inv.block_zero
  · -- a word that still carries `HEAP_HAS_NEXT` is not right behind the cleared ones
    intro i hi hnext
    have hi' : i + 1 < 25600 := by
      have := hc.total.trans h.total
      have hlt : i + 1 < a'.heap.table.total := hi
      omega
    change heapEntryHasNext (a'.heap.table.entry (i + 1)) = true at hnext
    change a'.heap.table.entry i = 0x41 ∨ a'.heap.table.entry i = 0x81
    rw [hentry (i + 1) hi'] at hnext
    split at hnext
    · exact absurd hnext (by decide)
    · rename_i hout
      rw [hentry i (by omega), if_neg]
      · exact hinner i hi' hnext
      · rintro ⟨h1, h2⟩
        have hend : i + 1 = b + m := by omega
        rw [hend, hstop (by omega)] at hnext
        exact absurd hnext (by decide)
  · rw [hc.mem, h.address hb]
  · rw [hentry b hb, if_pos (by omega)]
  · rw [hentry x hx]
    split
    · exact Or.inl rfl
    · exact Or.inr rfl
  · rw [hentry x hx, if_neg]
    rintro ⟨h1, h2⟩
    obtain ⟨i, rfl⟩ := Nat.exists_eq_add_of_le h1
    have hi := hc.chain i (by omega) (by omega)
    rw [hnext] at hi
    exact absurd hi (by decide)

end KokoOs
