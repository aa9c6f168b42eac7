/-
# First fit

`heap_malloc` serves a request from the lowest run of free blocks that is long enough, and panics
exactly when there is none (`heapMalloc_first_fit`).  Nothing is asked of the table: the heap may have
been used in any way, with frees of addresses that were never handed out and requests for nothing, as
long as the calls returned (`ReachableHeap`).

What should happen is said without the words of the code: a run of free blocks that no lower one
equals (`FirstFit`), taken as one allocation with nothing else changed (`TakesRun`).  The number of
blocks is the amount divided by their size, rounded up, for every amount that the rounding of the
code does not wrap around (`blocksOf_eq_ceil`); what becomes of the others is the subject of
`HeapNull.lean`.
-/
import KokoOs.HeapInv

namespace KokoOs

open Bytes Runs

/-! ## 1. Heaps in use -/

/-- A call of the heap, whatever its argument, or a store to memory. -/
inductive HeapUse where
  | malloc (amount : Nat)
  | free (address : Nat)
  | write (address : Nat) (byte : UInt8)

/-- The call returns. -/
inductive HeapUseStep : Arena → HeapUse → Arena → Prop
  | malloc {a a' : Arena} {n p : Nat} :
      heapMalloc n a = .ok p a' → HeapUseStep a (.malloc n) a'
  | free {a a' : Arena} {address : Nat} :
      heapFree address a = .ok () a' → HeapUseStep a (.free address) a'
  | write {a : Arena} {x : Nat} {v : UInt8} :
      HeapUseStep a (.write x v) { a with mem := Function.update a.mem x v }

/-- A heap that calls have led to from one that `heap_create` built. -/
def ReachableHeap (a : Arena) : Prop :=
  ∃ s tr, FreshHeap s ∧ Run HeapUseStep s.arena tr a

/-- No call changes the size of the table. -/
theorem HeapUseStep.total {a a' : Arena} {l : HeapUse} (hl : a.heap.table.total ≤ 2 ^ 30)
    (h : HeapUseStep a l a') : a'.heap.table.total = a.heap.table.total := by
  cases h with
  | malloc h =>
    rcases heapMalloc_ok hl h with ⟨-, -, rfl⟩ | ⟨-, b, -, hm⟩
    · rfl
    · exact hm.total
  | free h =>
    obtain ⟨-, -, m, hc, -⟩ := heapFree_ok h
    exact hc.total
  | write => rfl

/-- The table never has as many blocks as there are in 4 GiB. -/
theorem ReachableHeap.total_lt {a : Arena} (h : ReachableHeap a) :
    a.heap.table.total < 2 ^ 20 := by
  obtain ⟨s, tr, hs, hrun⟩ := h
  refine hrun.invariant (I := fun a => a.heap.table.total < 2 ^ 20) ?_ hs.inv.1.total_lt
  intro a l a' ha hstep
  rw [hstep.total (Nat.le_of_lt (Nat.lt_of_lt_of_le ha (by decide)))]
  exact ha

/-! ## 2. What a request for `k` blocks should do -/

/-- The lowest run of `k` free blocks starts at block `b`. -/
structure FirstFit (t : HeapTable) (b k : Nat) : Prop where
  inside : b + k ≤ t.total
  free : FreeRun t b k
  lowest : ∀ j < b, ¬ FreeRun t j k

/-- `a'` is `a` with the `k` blocks from `b` on taken as one allocation, and nothing else changed. -/
structure TakesRun (a a' : Arena) (b k : Nat) : Prop where
  taken : ∀ i < k, heapEntryIsTaken (a'.heap.table.entry (b + i)) = true
  first : ∀ i < k, heapEntryIsFirst (a'.heap.table.entry (b + i)) = true ↔ i = 0
  others : ∀ x < 2 ^ 30, x < b ∨ b + k ≤ x → a'.heap.table.entry x = a.heap.table.entry x
  total : a'.heap.table.total = a.heap.table.total
  startAddress : a'.heap.startAddress = a.heap.startAddress
  mem : a'.mem = a.mem

/-- A request for `n` bytes is served first fit by `k` blocks: if there is a run of `k` free blocks,
the lowest one is taken and its address returned, and a panic, which leaves the heap as it is, means
that there is none. -/
structure ServedFirstFit (a : Arena) (n k : Nat) : Prop where
  served : (∃ b, b + k ≤ a.heap.table.total ∧ FreeRun a.heap.table b k) →
    ∃ b a', FirstFit a.heap.table b k ∧
      heapMalloc n a = .ok (heapGetAddressFromBlock a.heap b) a' ∧ TakesRun a a' b k
  panics : (∃ message a', heapMalloc n a = .error (.panic message) a') ↔
    ∀ b, b + k ≤ a.heap.table.total → ¬ FreeRun a.heap.table b k
  unchanged : ∀ e a', heapMalloc n a = .error e a' → a' = a

/-! ## 3. What it does -/

/-- The number of blocks is the amount divided by their size, rounded up. -/
theorem blocksOf_eq_ceil {n : Nat} (h1 : 1 ≤ n) (hn : n ≤ 2 ^ 32 - 4096) :
    blocksOf n = (n + 4095) / 4096 ∧ heapAlignAmountOfBytesRequested n ≠ 0 := by
  unfold blocksOf heapAlignAmountOfBytesRequested
  simp only [kernelHeapBlockSize]
  split
  · omega
  · omega

/-- The first word of an allocation is the only one that says so. -/
theorem runEntry_first {k i : Nat} : heapEntryIsFirst (runEntry k i) = true ↔ i = 0 := by
  unfold runEntry
  by_cases h0 : i = 0
  · rw [if_pos h0]
    exact ⟨fun _ => h0, fun _ => by decide⟩
  · rw [if_neg h0]
    refine ⟨fun h => absurd h ?_, fun h => absurd h h0⟩
    split
    · decide
    · decide

/-- The marks of an allocation are on its blocks, and nowhere else. -/
theorem Marked.takesRun {a a' : Arena} {b k : Nat} (h : Marked a a' b k)
    (ht : a.heap.table.total ≤ 2 ^ 30) : TakesRun a a' b k := by
  have hin := h.inside
  have hword : ∀ i < k, a'.heap.table.entry (b + i) = runEntry k i := fun i hi => by
    rw [h.entry _ (by omega), if_pos (by omega), Nat.add_sub_cancel_left]
  refine ⟨fun i hi => ?_, fun i hi => ?_, fun x hx hout => ?_, h.total, h.startAddress, h.mem⟩
  · rw [hword i hi]
    have := runEntry_taken k i
    simpa [heapEntryIsFree] using this
  · rw [hword i hi]
    exact runEntry_first
  · rw [h.entry x hx, if_neg (by omega)]

/-- **First fit**, in every heap that is not larger than the address space. -/
theorem served_first_fit {a : Arena} {n : Nat} (ht : a.heap.table.total ≤ 2 ^ 30)
    (h0 : heapAlignAmountOfBytesRequested n ≠ 0) : ServedFirstFit a n (blocksOf n) := by
  have hpanic : ∀ e a', heapMalloc n a = .error e a' →
      ∀ b, b + blocksOf n ≤ a.heap.table.total → ¬ FreeRun a.heap.table b (blocksOf n) :=
    fun e a' h => (heapMalloc_error h).2.2
  have hserved : ∀ p a', heapMalloc n a = .ok p a' → ∃ b, FirstFit a.heap.table b (blocksOf n) ∧
      p = heapGetAddressFromBlock a.heap b ∧ TakesRun a a' b (blocksOf n) := by
    intro p a' h
    rcases heapMalloc_ok ht h with ⟨hz, -⟩ | ⟨-, b, hp, hm⟩
    · exact absurd hz h0
    · exact ⟨b, ⟨hm.inside, hm.free, hm.lowest⟩, hp, hm.takesRun ht⟩
  refine ⟨?_, ⟨?_, fun hnone => ?_⟩, fun e a' h => (heapMalloc_error h).2.1⟩
  · rintro ⟨b, hin, hfree⟩
    obtain ⟨p, a', h⟩ := heapMalloc_returns hin hfree
    obtain ⟨b', hfit, rfl, htakes⟩ := hserved p a' h
    exact ⟨b', a', hfit, h, htakes⟩
  · rintro ⟨message, a', h⟩
    exact hpanic _ a' h
  · cases h : heapMalloc n a with
    | ok p a' =>
      obtain ⟨b, hfit, -, -⟩ := hserved p a' h
      exact absurd hfit.free (hnone b hfit.inside)
    | error e a' =>
      obtain ⟨rfl, rfl, -⟩ := heapMalloc_error h
      exact ⟨_, a', rfl⟩

/-- **First fit.**  In every reachable heap a request for `n` bytes takes the lowest run of
`⌈n / 4096⌉` free blocks, and panics if and only if there is no such run, before it has changed
anything. -/
theorem heapMalloc_first_fit {a : Arena} (h : ReachableHeap a) {n : Nat} (h1 : 1 ≤ n)
    (hn : n ≤ 2 ^ 32 - 4096) : ServedFirstFit a n ((n + 4095) / 4096) := by
  obtain ⟨hk, h0⟩ := blocksOf_eq_ceil h1 hn
  rw [← hk]
  exact served_first_fit (Nat.le_of_lt (Nat.lt_of_lt_of_le h.total_lt (by decide))) h0

/-- A heap of four blocks whose second block has been given back, and a request for two blocks. -/
theorem heapMalloc_first_fit_four : ∃ a, ReachableHeap a ∧
    heapEntryIsTaken (a.heap.table.entry 0) = true ∧ ServedFirstFit a 5000 2 := by
  have hrun := (((Run.refl (newHeap 4).arena : Run HeapUseStep _ _ _).tail
    (HeapUseStep.malloc (n := 1) rfl)).tail (HeapUseStep.malloc (n := 1) rfl)).tail
    (@HeapUseStep.free _ _ (memoryHeapStartAddress + 4096) rfl)
  have h : ReachableHeap _ := ⟨newHeap 4, _, freshHeap_new (by decide) (by decide), hrun⟩
  exact ⟨_, h, by decide, heapMalloc_first_fit h (by decide) (by decide)⟩

end KokoOs
