/-
# What NULL from `heap_malloc` means

NULL is meant to say that nothing was asked for and nothing has happened.  `heap_malloc` gives it in
three cases, and only the first of them can be of that kind:

* **The amount is 0.**  The marking loop still runs, over block 0, whose word becomes that of an
  allocation; nothing has happened only if it was one before.
* **The amount is above `2 ^ 32 - 4096`.**  Rounding it up to whole blocks wraps around to 0, so what
  could never be served is answered as if nothing had been asked for.
* **The heap has a block at address 0**, and this is where the request is served from.

`heapMalloc_null_iff` says that there are no others, in every reachable heap.  What a request should
do is `NullMeansNothing`; the third case is told from a served request by the lowest run of free
blocks, of which there is only one (`FirstFit.unique`).

On a fresh heap a request for nothing takes block 0 (`null_marks_block_zero`).
-/
import KokoOs.HeapFirstFit

namespace KokoOs

open Bytes Runs

/-! ## 1. What a reachable heap keeps -/

/-- The table is not empty, and the word of block 0 is free or that of a first block: no request puts
block 0 behind another. -/
theorem ReachableHeap.block_zero {a : Arena} (h : ReachableHeap a) : 0 < a.heap.table.total ∧
    (a.heap.table.entry 0 = heapEntryFree ∨ a.heap.table.entry 0 = 0x41) := by
  obtain ⟨s, tr, hs, hrun⟩ := h
  refine (hrun.invariant (I := fun a => a.heap.table.total < 2 ^ 20 ∧ 0 < a.heap.table.total ∧
    (a.heap.table.entry 0 = heapEntryFree ∨ a.heap.table.entry 0 = 0x41)) ?_
    ⟨hs.inv.1.total_lt, hs.inv.1.total_pos, hs.inv.1.block_zero⟩).2
  rintro a l a' ⟨hlt, hpos, hzero⟩ hstep
  have ht : a.heap.table.total ≤ 2 ^ 30 := by omega
  rw [hstep.total ht]
  refine ⟨hlt, hpos, ?_⟩
  cases hstep with
  | malloc h =>
    rcases heapMalloc_ok ht h with ⟨-, -, rfl⟩ | ⟨-, b, -, hm⟩
    · right
      rw [HeapTable.entry_setEntry, if_pos rfl]
    · rw [hm.entry 0 (by decide)]
      split
      · next hin =>
        right
        rw [Nat.zero_sub]
        rfl
      · exact hzero
  | free h =>
    obtain ⟨-, -, m, hc, -⟩ := heapFree_ok h
    rw [hc.entry 0]
    split
    · exact Or.inl rfl
    · exact hzero
  | write => exact hzero

/-! ## 2. What NULL should mean -/

/-- A request for `n` bytes is answered honestly: NULL says that `n` is 0 and that the table is as it
was, any other amount is given a run of blocks with room for it, and what does not return panics. -/
structure NullMeansNothing (a : Arena) (n : Nat) : Prop where
  null : ∀ a', heapMalloc n a = .ok 0 a' →
    n = 0 ∧ ∀ i < a.heap.table.total, a'.heap.table.entry i = a.heap.table.entry i
  region : n ≠ 0 → ∀ p a', heapMalloc n a = .ok p a' →
    ∃ b k, p = heapGetAddressFromBlock a.heap b ∧ n ≤ 4096 * k ∧ FirstFit a.heap.table b k ∧
      TakesRun a a' b k
  panics : ∀ e a', heapMalloc n a = .error e a' → ∃ message, e = .panic message

/-- The requests that are: one for nothing when block 0 is taken, and one whose rounding does not wrap
around when the lowest run of blocks for it does not begin at address 0. -/
def NullSafe (a : Arena) (n : Nat) : Prop :=
  (n = 0 ∧ heapEntryIsTaken (a.heap.table.entry 0) = true) ∨
    (1 ≤ n ∧ n ≤ 2 ^ 32 - 4096 ∧
      ∀ b, FirstFit a.heap.table b ((n + 4095) / 4096) → heapGetAddressFromBlock a.heap b ≠ 0)

/-- An amount that rounds to zero is 0 or within a block of `2 ^ 32`. -/
theorem heapAlign_eq_zero_iff {n : Nat} (hn : n < 2 ^ 32) :
    heapAlignAmountOfBytesRequested n = 0 ↔ n = 0 ∨ 2 ^ 32 - 4096 < n := by
  unfold heapAlignAmountOfBytesRequested
  simp only [kernelHeapBlockSize]
  split <;> omega

/-- Such a request returns NULL, after it has marked block 0. -/
theorem heapMalloc_of_align_zero {a : Arena} {n : Nat} (h : heapAlignAmountOfBytesRequested n = 0) :
    heapMalloc n a = .ok 0 { a with heap.table := a.heap.table.setEntry 0 0x41 } := by
  unfold heapMalloc heapRequestMemory
  rw [h]
  rfl

/-! ## 3. When it does -/

section

variable {a : Arena} {n : Nat}

/-- A request for nothing changes the table unless block 0 is taken. -/
theorem null_of_zero (h : ReachableHeap a) (n0 : n = 0) :
    NullMeansNothing a n ↔ heapEntryIsTaken (a.heap.table.entry 0) = true := by
  obtain ⟨hpos, hzero⟩ := h.block_zero
  have hrun : heapMalloc n a = .ok 0 { a with heap.table := a.heap.table.setEntry 0 0x41 } :=
    heapMalloc_of_align_zero ((heapAlign_eq_zero_iff (by omega)).mpr (Or.inl n0))
  constructor
  · intro hnull
    have hsame := (hnull.null _ hrun).2 0 hpos
    rw [HeapTable.entry_setEntry, if_pos rfl] at hsame
    rw [← hsame]
    decide
  · intro htaken
    have hword : a.heap.table.entry 0 = 0x41 := by
      refine hzero.resolve_left fun hfree => ?_
      rw [hfree] at htaken
      exact absurd htaken (by decide)
    refine ⟨fun a' h' => ⟨n0, fun i hi => ?_⟩, fun hne => absurd n0 hne, fun e a' h' => ?_⟩
    · obtain ⟨-, rfl⟩ := EStateM.Result.ok.inj (hrun.symm.trans h')
      rw [HeapTable.entry_setEntry]
      split
      · next hi0 => rw [← HeapTable.entry_mod _ i, hi0, Nat.zero_mod, hword]
      · rfl
    · rw [hrun] at h'
      cases h'

/-- A request whose rounding wraps around is answered as if nothing had been asked for. -/
theorem not_null_of_wrap (hn : n < 2 ^ 32) (hwrap : 2 ^ 32 - 4096 < n) : ¬ NullMeansNothing a n := by
  intro hnull
  have h0 := (hnull.null _ (heapMalloc_of_align_zero
    ((heapAlign_eq_zero_iff hn).mpr (Or.inr hwrap)))).1
  omega

/-- A heap has only one lowest run of `k` free blocks. -/
theorem FirstFit.unique {t : HeapTable} {b c k : Nat} (hb : FirstFit t b k) (hc : FirstFit t c k) :
    b = c := by
  rcases Nat.lt_trichotomy b c with hlt | heq | hlt
  · exact absurd hb.free (hc.lowest b hlt)
  · exact heq
  · exact absurd hc.free (hb.lowest c hlt)

/-- What a request that is served first fit returns. -/
theorem ServedFirstFit.returned {k p : Nat} {a' : Arena} (h : ServedFirstFit a n k)
    (hrun : heapMalloc n a = .ok p a') :
    ∃ b, p = heapGetAddressFromBlock a.heap b ∧ FirstFit a.heap.table b k ∧ TakesRun a a' b k := by
  have hex : ∃ b, b + k ≤ a.heap.table.total ∧ FreeRun a.heap.table b k := by
    by_contra hno
    obtain ⟨message, a'', herr⟩ := h.panics.mpr fun b hin hfree => hno ⟨b, hin, hfree⟩
    rw [hrun] at herr
    cases herr
  obtain ⟨b, a'', hfit, hok, htakes⟩ := h.served hex
  obtain ⟨rfl, rfl⟩ := EStateM.Result.ok.inj (hrun.symm.trans hok)
  exact ⟨b, rfl, hfit, htakes⟩

/-- A request that does not round to zero is served first fit, and its address is NULL only if the block is
at address 0. -/
theorem null_of_blocks (h : ReachableHeap a) (h1 : 1 ≤ n) (hn : n ≤ 2 ^ 32 - 4096) :
    NullMeansNothing a n ↔
      ∀ b, FirstFit a.heap.table b ((n + 4095) / 4096) → heapGetAddressFromBlock a.heap b ≠ 0 := by
  obtain ⟨hk, h0⟩ := blocksOf_eq_ceil h1 hn
  have hlt := h.total_lt
  have hserved : ServedFirstFit a n ((n + 4095) / 4096) := by
    rw [← hk]
    exact served_first_fit (by omega) h0
  constructor
  · intro hnull b hfit hzero
    obtain ⟨c, a', hfit', hok, -⟩ := hserved.served ⟨b, hfit.inside, hfit.free⟩
    rw [hfit'.unique hfit, hzero] at hok
    have n0 := (hnull.null a' hok).1
    omega
  · intro hsafe
    refine ⟨fun a' hok => ?_, fun _ p a' hok => ?_, fun e a' herr => ⟨_, (heapMalloc_error herr).1⟩⟩
    · obtain ⟨b, hb, hfit, -⟩ := hserved.returned hok
      exact absurd hb.symm (hsafe b hfit)
    · obtain ⟨b, hb, hfit, htakes⟩ := hserved.returned hok
      exact ⟨b, (n + 4095) / 4096, hb, by omega, hfit, htakes⟩

end

/-- **What NULL means.**  In every reachable heap a request is answered honestly if and only if it is
one for nothing while block 0 is taken, or one that does not wrap around and is not served at
address 0. -/
theorem heapMalloc_null_iff {a : Arena} (h : ReachableHeap a) {n : Nat} (hn : n < 2 ^ 32) :
    NullMeansNothing a n ↔ NullSafe a n := by
  unfold NullSafe
  by_cases n0 : n = 0
  · rw [null_of_zero h n0]
    exact ⟨fun htaken => Or.inl ⟨n0, htaken⟩, fun hsafe => hsafe.elim And.right fun h1 => by omega⟩
  by_cases hwrap : 2 ^ 32 - 4096 < n
  · exact iff_of_false (not_null_of_wrap hn hwrap) (by omega)
  · rw [null_of_blocks h (by omega) (by omega)]
    exact ⟨fun hsafe => Or.inr ⟨by omega, by omega, hsafe⟩,
      fun hsafe => hsafe.elim (fun hzero => absurd hzero.1 n0) fun hblocks => hblocks.2.2⟩

/-- A fresh heap of four blocks, and a request for one byte. -/
theorem heapMalloc_null_four : NullMeansNothing (newHeap 4).arena 1 := by
  have h : ReachableHeap (newHeap 4).arena := ⟨newHeap 4, [], freshHeap_new (by decide) (by decide), Run.refl _⟩
  refine (heapMalloc_null_iff h (by decide)).mpr (Or.inr ⟨by decide, by decide, fun b hfit => ?_⟩)
  have hin : b + 1 ≤ 4 := hfit.inside
  change (memoryHeapStartAddress + b * 4096) % 2 ^ 32 ≠ 0
  unfold memoryHeapStartAddress
  omega

/-- **On a fresh heap a request for nothing takes block 0, and one for 4 GiB less a byte is answered
with NULL.** -/
theorem null_marks_block_zero : ∃ a, ReachableHeap a ∧ ¬ NullMeansNothing a 0 ∧
    ¬ NullMeansNothing a 0xFFFFFFFF := by
  refine ⟨(newHeap 4).arena, ⟨newHeap 4, [], freshHeap_new (by decide) (by decide), Run.refl _⟩,
    fun hnothing => ?_, fun hmuch => ?_⟩
  · have hsame := (hnothing.null _ rfl).2 0 (by decide)
    exact absurd hsame (by decide)
  · have hzero := (hmuch.null _ rfl).1
    exact absurd hzero (by decide)

end KokoOs
