/-
# Histories of the heap and what survives them

A history is any sequence of `heap_malloc` calls with 32-bit amounts, `heap_free` calls on live
addresses and client writes into live allocations, from a heap that `heap_create` has just
built.  `HeapStep` is one call; the state carries the list of live allocations beside the arena,
as (address, amount), which is all a client knows of them.

The invariant `HeapInv` is about the flag patterns of the table.  `heap_free` does not release
every block of a longer allocation, so the table fills with words whose owner is gone, and the
invariant may not say that taken words belong to somebody.  What it says instead is that a word
with `HEAP_HAS_NEXT` always stands behind another word of a run (`inner`): this is what stops
the freeing loop at the end of an allocation, whatever lies behind it.

* **Freeing.**  On the address of a live allocation `heap_free` clears the words of all blocks but the
  last, or of the only one (`free_live`).  The difference of two pointers is a signed number, so on an
  address 2 GiB or more above the start of the heap it clears no word of the table at all; the
  invariant is kept all the same.
* **Every call.**  `HeapStep.inv` is the step, case by case, and `heapInv_of_run` the induction.
* **The result.**  After every history the live allocations are aligned, inside the heap, large enough,
  marked and disjoint (`live_allocations_sound`), whatever was leaked on the way.

So the allocator loses memory, but it never gives the same memory to two clients.
-/
import KokoOs.HeapSpec
import KokoOs.Lib.Run
import Mathlib.Order.Interval.Finset.Nat

namespace KokoOs

open Bytes Runs

/-! ## 1. Histories -/

/-- What a client knows of an allocation it holds. -/
structure Allocation where
  address : Nat
  amount : Nat
  deriving DecidableEq

/-- A heap and the allocations that are live in it. -/
structure HeapState where
  arena : Arena
  live : List Allocation

/-- The calls of a history. -/
inductive HeapCall where
  | malloc (amount result : Nat)
  | free (allocation : Allocation)
  | write (address : Nat) (byte : UInt8)

/-- The block an allocation starts at. -/
def Allocation.block (al : Allocation) (heap : Heap) : Nat :=
  (al.address + 2 ^ 32 - heap.startAddress) % 2 ^ 32 / 4096

/-- The number of blocks of an allocation. -/
def Allocation.blocks (al : Allocation) : Nat := blocksOf al.amount

/-- The blocks of an allocation. -/
def Allocation.range (al : Allocation) (heap : Heap) : Finset Nat :=
  Finset.Ico (al.block heap) (al.block heap + al.blocks)

/-- One call of a history that returns. -/
inductive HeapStep : HeapState → HeapCall → HeapState → Prop
  | malloc {s : HeapState} {n p : Nat} {a' : Arena} :
      n < 2 ^ 32 → heapMalloc n s.arena = .ok p a' →
      HeapStep s (.malloc n p) ⟨a', if p = 0 then s.live else ⟨p, n⟩ :: s.live⟩
  | free {s : HeapState} {al : Allocation} {a' : Arena} :
      al ∈ s.live → heapFree al.address s.arena = .ok () a' →
      HeapStep s (.free al) ⟨a', s.live.erase al⟩
  | write {s : HeapState} {al : Allocation} {x : Nat} {v : UInt8} :
      al ∈ s.live → al.address ≤ x → x < al.address + 4096 * al.blocks →
      HeapStep s (.write x v) ⟨{ s.arena with mem := Function.update s.arena.mem x v }, s.live⟩

/-- A heap just built by `heap_create_table` and `heap_create`, of any size, at any aligned
32-bit address, over any memory. -/
def FreshHeap (s : HeapState) : Prop :=
  s.live = [] ∧ ∃ words mem startAddress availableBytes table,
    startAddress < 2 ^ 32 ∧ availableBytes < 2 ^ 32 ∧
    heapCreateTable words availableBytes = .ok table ∧
    heapCreate mem startAddress table = .ok s.arena

/-! ## 2. Addresses and blocks -/

theorem heapGetAddressFromBlock_eq (heap : Heap) (b : Nat) :
    heapGetAddressFromBlock heap b = (heap.startAddress + b * 4096) % 2 ^ 32 := rfl

/-- Blocks are found again from their addresses. -/
theorem block_of_address {heap : Heap} {b n : Nat} (hs : heap.startAddress < 2 ^ 32)
    (hb : b < 2 ^ 20) :
    Allocation.block ⟨heapGetAddressFromBlock heap b, n⟩ heap = b := by
  simp only [Allocation.block, heapGetAddressFromBlock_eq]
  omega

/-- An allocation is where its block is. -/
def Allocation.Placed (al : Allocation) (heap : Heap) : Prop :=
  al.address = heapGetAddressFromBlock heap (al.block heap)

/-! ## 3. The invariant -/

/-- The table shows the allocation: its words spell out a run of its length, inside the table,
and if it is a single block then no `HEAP_HAS_NEXT` stands right behind it. -/
structure Shows (heap : Heap) (al : Allocation) : Prop where
  placed : al.Placed heap
  pos : 0 < al.blocks
  fits : al.amount ≤ 4096 * al.blocks
  inside : al.block heap + al.blocks ≤ heap.table.total
  words : ∀ i < al.blocks, heap.table.entry (al.block heap + i) = runEntry al.blocks i
  single : al.blocks = 1 → al.block heap + 1 < heap.table.total →
    heapEntryHasNext (heap.table.entry (al.block heap + 1)) = false

/-- **The invariant of the heap.** -/
structure HeapInv (s : HeapState) : Prop where
  start_lt : s.arena.heap.startAddress < 2 ^ 32
  start_aligned : s.arena.heap.startAddress % 4096 = 0
  total_pos : 0 < s.arena.heap.table.total
  total_lt : s.arena.heap.table.total < 2 ^ 20
  block_zero : s.arena.heap.table.entry 0 = 0 ∨ s.arena.heap.table.entry 0 = 0x41
  inner : ∀ i, i + 1 < s.arena.heap.table.total →
    heapEntryHasNext (s.arena.heap.table.entry (i + 1)) = true →
    s.arena.heap.table.entry i = 0x41 ∨ s.arena.heap.table.entry i = 0x81
  shows : ∀ al ∈ s.live, Shows s.arena.heap al
  apart : s.live.Pairwise fun al al' => Disjoint (al.range s.arena.heap) (al'.range s.arena.heap)

theorem runEntry_cases (k i : Nat) : runEntry k i = 0x41 ∨ runEntry k i = 0x01 ∨ runEntry k i = 0x81 := by
  unfold runEntry
  split
  · exact Or.inl rfl
  · split
    · exact Or.inr (Or.inl rfl)
    · exact Or.inr (Or.inr rfl)

/-- The words of a run are taken. -/
theorem runEntry_taken (k i : Nat) : heapEntryIsFree (runEntry k i) = false := by
  rcases runEntry_cases k i with h | h | h <;> rw [h] <;> decide

/-- The blocks of an allocation the table shows are taken. -/
theorem Shows.taken {heap : Heap} {al : Allocation} (h : Shows heap al) {x : Nat}
    (hx : x ∈ al.range heap) : heapEntryIsFree (heap.table.entry x) = false := by
  have hx' := Finset.mem_Ico.mp hx
  obtain ⟨i, rfl⟩ := Nat.exists_eq_add_of_le hx'.1
  rw [h.words i (by omega)]
  exact runEntry_taken _ _

/-- What `heap_create_table` and `heap_create` build together. -/
theorem heapCreate_ok {words : Nat → HeapEntry} {mem : Mem} {start avail : Nat} {table : HeapTable}
    {a : Arena} (havail : avail < 2 ^ 32) (htab : heapCreateTable words avail = .ok table)
    (h : heapCreate mem start table = .ok a) :
    a.heap.startAddress = start ∧ start % 4096 = 0 ∧ 4096 ≤ avail ∧
      a.heap.table.total = avail / 4096 ∧ ∀ i < avail / 4096, a.heap.table.entry i = 0 := by
  unfold heapCreateTable at htab
  split at htab
  · exact absurd htab (by simp)
  · rename_i hav
    obtain rfl : (⟨avail / 4096, words⟩ : HeapTable) = table := by simpa using htab
    simp only [heapCreate] at h
    split at h
    · exact absurd h (by simp)
    · rename_i hal
      have haligned : start % 4096 = 0 := by
        simp only [heapValidateAlignment, Bool.or_eq_true, Bool.not_eq_true', beq_eq_false_iff_ne,
          ne_eq, not_or, Decidable.not_not] at hal
        exact hal.1
      split at h
      · exact absurd h (by simp)
      · simp only [Except.ok.injEq] at h
        subst h
        simp only [kernelHeapBlockSize] at hav
        refine ⟨rfl, haligned, by omega, rfl, fun i hi => ?_⟩
        simp only [HeapTable.entry]
        rw [Nat.mod_eq_of_lt (by omega), if_pos hi]

/-- A fresh heap satisfies the invariant, and its table is free. -/
theorem FreshHeap.inv {s : HeapState} (h : FreshHeap s) :
    HeapInv s ∧ ∀ i < s.arena.heap.table.total, s.arena.heap.table.entry i = 0 := by
  obtain ⟨hlive, words, mem, start, avail, table, hs, ha, htab, hcreate⟩ := h
  obtain ⟨hstart, hal, hav, htotal, hzero⟩ := heapCreate_ok ha htab hcreate
  rw [← htotal] at hzero
  refine ⟨?_, hzero⟩
  constructor
  case start_lt => omega
  case start_aligned => omega
  case total_pos => omega
  case total_lt => omega
  case block_zero => exact Or.inl (hzero 0 (by omega))
  case inner =>
    intro i hi hn
    rw [hzero _ hi] at hn
    exact absurd hn (by decide)
  case shows =>
    rw [hlive]
    exact fun al hal => absurd hal (by simp)
  case apart =>
    rw [hlive]
    exact List.Pairwise.nil

/-! ## 4. What freeing a live allocation does to the table -/

/-- The address of an allocation is one that `heap_free` finds the way back from: it is not
below the start of the heap (the heap does not wrap around the address space in front of it),
and it is less than 2 GiB above it (the difference of the pointers is not negative). -/
def Allocation.Reached (al : Allocation) (heap : Heap) : Prop :=
  heap.startAddress + 4096 * al.block heap < 2 ^ 32 ∧ 4096 * al.block heap < 2 ^ 31

instance (al : Allocation) (heap : Heap) : Decidable (al.Reached heap) :=
  inferInstanceAs (Decidable (_ ∧ _))

/-- How many blocks `heap_free` releases of an allocation of `k`: all but the last, and the
only one. -/
def released (k : Nat) : Nat := max 1 (k - 1)

theorem released_le {k : Nat} (h : 0 < k) : released k ≤ k := max_le h (Nat.sub_le k 1)

/-- The word behind them does not carry `HEAP_HAS_NEXT`. -/
theorem Shows.behind_released {heap : Heap} {al : Allocation} (h : Shows heap al)
    (hlt : al.block heap + released al.blocks < heap.table.total) :
    heapEntryHasNext (heap.table.entry (al.block heap + released al.blocks)) = false := by
  have hpos := h.pos
  by_cases hk : al.blocks = 1
  · have hone : released al.blocks = 1 := by
      rw [hk]
      rfl
    rw [hone] at hlt ⊢
    exact h.single hk hlt
  · have hlast : released al.blocks = al.blocks - 1 := by
      unfold released
      omega
    rw [hlast, h.words _ (by omega), runEntry, if_neg (by omega), if_pos (by omega)]
    decide

theorem Shows.block_lt {s : HeapState} (hI : HeapInv s) {al : Allocation}
    (h : Shows s.arena.heap al) : al.block s.arena.heap < 2 ^ 20 := by
  have := h.inside
  have := hI.total_lt
  have := h.pos
  omega

/-- The first word of an allocation. -/
theorem Shows.first {heap : Heap} {al : Allocation} (h : Shows heap al) :
    heap.table.entry (al.block heap) = 0x41 := by
  have := h.words 0 h.pos
  simpa [runEntry] using this

/-- `heap_free` computes the block of a live address it can reach. -/
theorem freeStartBlock_of_reached {heap : Heap} {al : Allocation} (hp : al.Placed heap)
    (hr : al.Reached heap) : heapFreeStartBlock heap al.address = al.block heap := by
  have ha : al.address = heap.startAddress + al.block heap * 4096 := by
    rw [hp, heapGetAddressFromBlock_eq]
    have := hr.1
    omega
  have := hr.2
  unfold heapFreeStartBlock
  split
  · unfold heapBlockOfAddress
    rw [ha]
    simp only [kernelHeapBlockSize]
    rw [if_pos (by omega)]
    omega
  · omega

/-- On a live address 2 GiB or more above the start, the signed difference is negative, and
`heap_free` goes to a word in front of the table. -/
theorem freeStartBlock_of_far {heap : Heap} {al : Allocation} (hp : al.Placed heap)
    (hw : heap.startAddress + 4096 * al.block heap < 2 ^ 32) (hb : al.block heap < 2 ^ 20)
    (hf : 2 ^ 31 ≤ 4096 * al.block heap) :
    heapFreeStartBlock heap al.address % 2 ^ 30 = 2 ^ 30 - 2 ^ 20 + al.block heap := by
  have ha : al.address = heap.startAddress + al.block heap * 4096 := by
    rw [hp, heapGetAddressFromBlock_eq]
    omega
  unfold heapFreeStartBlock
  rw [if_pos (by omega)]
  unfold heapBlockOfAddress
  rw [ha]
  simp only [kernelHeapBlockSize]
  rw [if_neg (by omega)]
  omega

/-- The freeing loop never gets past the last word of memory: the word behind it is that of
block 0, which never carries `HEAP_HAS_NEXT`. -/
theorem Cleared.no_wrap {a a' : Arena} {w m b : Nat} (h : Cleared a a' w m b)
    (h0 : a.heap.table.entry 0 = 0 ∨ a.heap.table.entry 0 = 0x41) :
    w % 2 ^ 30 + m ≤ 2 ^ 30 := by
  by_contra hlt
  have hj := h.chain (2 ^ 30 - w % 2 ^ 30) (by omega) (by omega)
  have hz : (w + (2 ^ 30 - w % 2 ^ 30)) % 2 ^ 30 = 0 := by omega
  rw [← HeapTable.entry_mod, hz] at hj
  rcases h0 with h0 | h0 <;> rw [h0] at hj <;> exact absurd hj (by decide)

/-- The loop stops at the last word of the run, or right behind a single block. -/
theorem Cleared.lt_iff_released {a a' : Arena} {al : Allocation} {m b x : Nat}
    (hc : Cleared a a' (al.block a.heap) m b) (hsh : Shows a.heap al)
    (hT : a.heap.table.total < 2 ^ 20)
    (hstop : m < 2 ^ 30 → heapEntryHasNext (a.heap.table.entry (al.block a.heap + m)) = false)
    (hx : x < a.heap.table.total) (hbx : al.block a.heap ≤ x) :
    x < al.block a.heap + m ↔ x < al.block a.heap + released al.blocks := by
  have hin := hsh.inside
  have hpos := hsh.pos
  have hm := hc.pos
  unfold released
  by_cases hk : al.blocks = 1
  · have hm1 : x < al.block a.heap + m → x < al.block a.heap + 1 := by
      intro hxm
      by_contra hge
      have hj := hc.chain 1 (by omega) (by omega)
      rw [hsh.single hk (by omega)] at hj
      exact absurd hj (by decide)
    omega
  · have hlast : ¬ al.blocks - 1 < m := by
      intro hlt
      have hj := hc.chain (al.blocks - 1) (by omega) hlt
      rw [hsh.words _ (by omega)] at hj
      have hrun : runEntry al.blocks (al.blocks - 1) = 0x01 := by
        rw [runEntry, if_neg (by omega), if_pos (by omega)]
      rw [hrun] at hj
      exact absurd hj (by decide)
    have hfull : ¬ m < al.blocks - 1 := by
      intro hlt
      have hj := hstop (by omega)
      rw [hsh.words _ (by omega)] at hj
      have hrun : runEntry al.blocks m = 0x81 := by
        rw [runEntry, if_neg (by omega), if_neg (by omega)]
      rw [hrun] at hj
      exact absurd hj (by decide)
    omega

/-- **What `heap_free` does to the table on a live address.**  On an address it can reach it
clears the words of all blocks but the last, or of the only one; on any other it clears no word
of the table at all. -/
theorem free_live {s : HeapState} (hI : HeapInv s) {al : Allocation} (hal : al ∈ s.live) {a' : Arena}
    (h : heapFree al.address s.arena = .ok () a') :
    a'.heap.startAddress = s.arena.heap.startAddress ∧
      a'.heap.table.total = s.arena.heap.table.total ∧
      ∀ x < s.arena.heap.table.total, a'.heap.table.entry x =
        if al.Reached s.arena.heap ∧ al.block s.arena.heap ≤ x ∧
            x < al.block s.arena.heap + released al.blocks then 0
        else s.arena.heap.table.entry x := by
  obtain ⟨hstart, -, m, hc, hstop⟩ := heapFree_ok h
  have hsh := hI.shows al hal
  have hb := hsh.block_lt hI
  have hT := hI.total_lt
  have hin := hsh.inside
  have hw := hc.no_wrap hI.block_zero
  refine ⟨hc.startAddress, hc.total, fun x hx => ?_⟩
  rw [hc.entry]
  by_cases hr : al.Reached s.arena.heap
  · rw [freeStartBlock_of_reached hsh.placed hr] at hc hstop hw ⊢
    have hcount := hc.lt_iff_released hsh hT hstop hx
    by_cases hbx : al.block s.arena.heap ≤ x
    · have := hcount hbx
      by_cases hxm : x < al.block s.arena.heap + m
      · rw [if_pos (by omega), if_pos ⟨hr, hbx, this.mp hxm⟩]
      · rw [if_neg (by omega), if_neg (fun hc' => hxm (this.mpr hc'.2.2))]
    · rw [if_neg (by omega), if_neg (fun hc' => hbx hc'.2.1)]
  · have hno : ¬ (al.Reached s.arena.heap ∧ al.block s.arena.heap ≤ x ∧
        x < al.block s.arena.heap + released al.blocks) := fun hc' => hr hc'.1
    rw [if_neg hno]
    have haddr : heapGetAddressFromBlock s.arena.heap (al.block s.arena.heap) = al.address :=
      hsh.placed.symm
    have hnowrap : s.arena.heap.startAddress + 4096 * al.block s.arena.heap < 2 ^ 32 := by
      rw [heapGetAddressFromBlock_eq] at haddr
      have := hI.start_lt
      omega
    have hfar : 2 ^ 31 ≤ 4096 * al.block s.arena.heap := by
      by_contra hlt
      exact hr ⟨hnowrap, by omega⟩
    have hidx := freeStartBlock_of_far hsh.placed hnowrap hb hfar
    rw [if_neg (by omega)]

/-! ## 5. Every call preserves the invariant -/

/-- An allocation is placed, sized and ranged by the geometry of the heap alone. -/
theorem Allocation.block_congr {h h' : Heap} (hs : h'.startAddress = h.startAddress)
    (al : Allocation) : al.block h' = al.block h := by
  simp only [Allocation.block, hs]

theorem Allocation.range_congr {h h' : Heap} (hs : h'.startAddress = h.startAddress)
    (al : Allocation) : al.range h' = al.range h := by
  simp only [Allocation.range, al.block_congr hs]

/-- The table goes on showing an allocation when its words, and the one behind a single block,
have not gained a flag. -/
theorem Shows.congr {h h' : Heap} {al : Allocation} (hsh : Shows h al)
    (hs : h'.startAddress = h.startAddress) (ht : h'.table.total = h.table.total)
    (hwords : ∀ x ∈ al.range h, h'.table.entry x = h.table.entry x)
    (hnext : al.blocks = 1 → al.block h + 1 < h.table.total →
      heapEntryHasNext (h'.table.entry (al.block h + 1)) = false) : Shows h' al := by
  constructor
  case placed =>
    have := hsh.placed
    simp only [Allocation.Placed, heapGetAddressFromBlock_eq, hs, al.block_congr hs] at this ⊢
    exact this
  case pos => exact hsh.pos
  case fits => exact hsh.fits
  case inside =>
    rw [al.block_congr hs, ht]
    exact hsh.inside
  case words =>
    intro i hi
    rw [al.block_congr hs, hwords _ (Finset.mem_Ico.mpr ⟨by omega, by omega⟩)]
    exact hsh.words i hi
  case single =>
    rw [al.block_congr hs, ht]
    exact hnext

/-- `heap_malloc` of an amount that rounds to zero rewrites the word of block 0, which shows
the same allocations as before. -/
theorem HeapInv.malloc_zero {s : HeapState} (hI : HeapInv s) :
    HeapInv ⟨{ s.arena with heap.table := s.arena.heap.table.setEntry 0 0x41 }, s.live⟩ := by
  have hT := hI.total_lt
  have hentry : ∀ x < 2 ^ 30, x ≠ 0 →
      (s.arena.heap.table.setEntry 0 0x41).entry x = s.arena.heap.table.entry x := by
    intro x hx h0
    rw [HeapTable.entry_setEntry, if_neg (by omega)]
  have hzero : (s.arena.heap.table.setEntry 0 0x41).entry 0 = 0x41 := by
    rw [HeapTable.entry_setEntry, if_pos rfl]
  constructor
  case start_lt => exact hI.start_lt
  case start_aligned => exact hI.start_aligned
  case total_pos => exact hI.total_pos
  case total_lt => exact hT
  case block_zero => exact Or.inr hzero
  case inner =>
    intro i hi hn
    have hi' : i + 1 < s.arena.heap.table.total := hi
    rcases Nat.eq_zero_or_pos i with rfl | hpos
    · exact Or.inl hzero
    · rw [hentry (i + 1) (by omega) (by omega)] at hn
      rw [hentry i (by omega) (by omega)]
      exact hI.inner i hi hn
  case shows =>
    intro al hal
    have hsh := hI.shows al hal
    have hb := hsh.block_lt hI
    have hkeep : Shows { s.arena.heap with table := s.arena.heap.table.setEntry 0 0x41 } al := by
      refine hsh.congr rfl rfl (fun x hx => ?_) (fun h1 hlt => ?_)
      · have hx' := Finset.mem_Ico.mp hx
        have hin := hsh.inside
        rcases Nat.eq_zero_or_pos x with rfl | hpos
        · have hfirst := hsh.first
          rw [Nat.le_zero.mp hx'.1] at hfirst
          exact hzero.trans hfirst.symm
        · exact hentry x (by omega) (by omega)
      · rw [hentry _ (by omega) (by omega)]
        exact hsh.single h1 hlt
    exact hkeep
  case apart => exact hI.apart

/-- A newly marked run is shown as the allocation it was made for. -/
theorem Marked.shows {s : HeapState} (hI : HeapInv s) {n b : Nat} {a' : Arena} (hn : n < 2 ^ 32)
    (h0 : heapAlignAmountOfBytesRequested n ≠ 0) (hm : Marked s.arena a' b (blocksOf n)) :
    (⟨heapGetAddressFromBlock s.arena.heap b, n⟩ : Allocation).block a'.heap = b ∧
      Shows a'.heap ⟨heapGetAddressFromBlock s.arena.heap b, n⟩ := by
  have hT := hI.total_lt
  have hin := hm.inside
  have hpos : 0 < blocksOf n := blocksOf_pos h0
  have hblock : (⟨heapGetAddressFromBlock s.arena.heap b, n⟩ : Allocation).block a'.heap = b := by
    rw [Allocation.block_congr hm.startAddress]
    exact block_of_address hI.start_lt (by omega)
  refine ⟨hblock, ?_⟩
  constructor
  case placed =>
    rw [Allocation.Placed, hblock]
    simp only [heapGetAddressFromBlock_eq, hm.startAddress]
  case pos => exact hpos
  case fits =>
    have h1 := le_heapAlign hn h0
    have h2 := heapAlign_mod n
    simp only [Allocation.blocks, blocksOf]
    omega
  case inside =>
    rw [hblock, hm.total]
    exact hin
  case words =>
    intro i hi
    have hi' : i < blocksOf n := hi
    rw [hblock, hm.entry _ (by omega), if_pos (by omega)]
    simp [Allocation.blocks]
  case single =>
    intro h1 hlt
    have h1' : blocksOf n = 1 := h1
    rw [hblock, hm.total] at hlt
    rw [hblock, hm.entry _ (by omega), if_neg (by omega)]
    by_contra hnext
    have hprev := hI.inner b hlt (by simpa using hnext)
    have hfree := hm.free 0 (by omega)
    rw [Nat.add_zero] at hfree
    rcases hprev with h | h <;> rw [h] at hfree <;> exact absurd hfree (by decide)

/-- The table goes on showing the allocations that were live before a run was marked. -/
theorem Marked.keeps {s : HeapState} (hI : HeapInv s) {b k : Nat} {a' : Arena}
    (hm : Marked s.arena a' b k) {al : Allocation} (hal : al ∈ s.live) : Shows a'.heap al := by
  have hsh := hI.shows al hal
  have hT := hI.total_lt
  have hin := hsh.inside
  refine hsh.congr hm.startAddress hm.total (fun x hx => ?_) (fun h1 hlt => ?_)
  · have hx' := Finset.mem_Ico.mp hx
    rw [hm.entry x (by omega), if_neg (FreeRun.not_mem hm.free (hsh.taken hx))]
  · rw [hm.entry _ (by omega)]
    split
    · rename_i hr
      -- the run starts right behind the single block, since that block itself is taken
      have hstart : b = al.block s.arena.heap + 1 := by
        by_contra hne
        have h2 := hsh.taken (x := al.block s.arena.heap)
          (Finset.mem_Ico.mpr ⟨Nat.le_refl _, by omega⟩)
        exact FreeRun.not_mem hm.free h2 ⟨by omega, by omega⟩
      rw [hstart, Nat.sub_self]
      exact (by decide : heapEntryHasNext 0x41 = false)
    · exact hsh.single h1 hlt

/-- A newly marked run is apart from every live allocation. -/
theorem Marked.apart {s : HeapState} (hI : HeapInv s) {b k : Nat} {a' : Arena}
    (hm : Marked s.arena a' b k) {al : Allocation} (hal : al ∈ s.live) :
    Disjoint (Finset.Ico b (b + k)) (al.range s.arena.heap) := by
  refine Finset.disjoint_left.mpr fun x hx hx' => ?_
  exact FreeRun.not_mem hm.free ((hI.shows al hal).taken hx') (Finset.mem_Ico.mp hx)

/-- Marking a run keeps the invariant, whether or not the client is handed the allocation. -/
theorem HeapInv.marked {s : HeapState} (hI : HeapInv s) {n b : Nat} {a' : Arena} (hn : n < 2 ^ 32)
    (h0 : heapAlignAmountOfBytesRequested n ≠ 0) (hm : Marked s.arena a' b (blocksOf n))
    {live : List Allocation}
    (hlive : live = s.live ∨ live = ⟨heapGetAddressFromBlock s.arena.heap b, n⟩ :: s.live) :
    HeapInv ⟨a', live⟩ := by
  obtain ⟨hblock, hnew⟩ := hm.shows hI hn h0
  have hT := hI.total_lt
  have hin := hm.inside
  have hold : ∀ al ∈ s.live, Shows a'.heap al := fun al hal => hm.keeps hI hal
  have hapart : s.live.Pairwise fun al al' => Disjoint (al.range a'.heap) (al'.range a'.heap) := by
    simpa only [Allocation.range_congr hm.startAddress] using hI.apart
  constructor
  case start_lt =>
    rw [hm.startAddress]
    exact hI.start_lt
  case start_aligned =>
    rw [hm.startAddress]
    exact hI.start_aligned
  case total_pos =>
    rw [hm.total]
    exact hI.total_pos
  case total_lt =>
    rw [hm.total]
    exact hT
  case block_zero =>
    rw [hm.entry 0 (by omega)]
    split
    · rename_i hr
      rw [Nat.zero_sub]
      exact Or.inr rfl
    · exact hI.block_zero
  case inner =>
    intro i hi hnext
    rw [hm.total] at hi
    rw [hm.entry _ (by omega)] at hnext ⊢
    by_cases hr : b ≤ i + 1 ∧ i + 1 < b + blocksOf n
    · rw [if_pos hr] at hnext
      by_cases hfirst : i + 1 - b = 0
      · rw [hfirst] at hnext
        exact absurd hnext (by simp [runEntry]; decide)
      · rw [if_pos (by omega), runEntry]
        split
        · exact Or.inl rfl
        · rw [if_neg (by omega)]
          exact Or.inr rfl
    · rw [if_neg hr] at hnext
      have hprev := hI.inner i hi hnext
      rw [if_neg]
      · exact hprev
      · refine FreeRun.not_mem hm.free ?_
        rcases hprev with h | h <;> rw [h] <;> decide
  case shows =>
    rcases hlive with rfl | rfl
    · exact hold
    · intro al hal
      rcases List.mem_cons.mp hal with rfl | hal
      · exact hnew
      · exact hold al hal
  case apart =>
    rcases hlive with rfl | rfl
    · exact hapart
    · refine List.pairwise_cons.mpr ⟨fun al hal => ?_, hapart⟩
      rw [Allocation.range_congr hm.startAddress al, Allocation.range, hblock]
      exact hm.apart hI hal

/-- The other live allocations are apart from one that is freed, and from each other. -/
theorem HeapInv.apart_erase {s : HeapState} (hI : HeapInv s) {al : Allocation} (hal : al ∈ s.live) :
    (∀ al' ∈ s.live.erase al, Disjoint (al.range s.arena.heap) (al'.range s.arena.heap)) ∧
      (s.live.erase al).Pairwise fun al al' =>
        Disjoint (al.range s.arena.heap) (al'.range s.arena.heap) :=
  List.pairwise_cons.mp (((List.perm_cons_erase hal).pairwise_iff fun h => h.symm).mp hI.apart)

/-- **Freeing a live allocation keeps the invariant.** -/
theorem HeapInv.free {s : HeapState} (hI : HeapInv s) {al : Allocation} (hal : al ∈ s.live)
    {a' : Arena} (h : heapFree al.address s.arena = .ok () a') :
    HeapInv ⟨a', s.live.erase al⟩ := by
  obtain ⟨hstart, htotal, hentry⟩ := free_live hI hal h
  have hsh := hI.shows al hal
  have hT := hI.total_lt
  have hTp := hI.total_pos
  have hin := hsh.inside
  -- the released blocks are blocks of the allocation
  have hrel := released_le hsh.pos
  obtain ⟨hother, hapart⟩ := hI.apart_erase hal
  have hgain : ∀ x < s.arena.heap.table.total, a'.heap.table.entry x = 0 ∨
      a'.heap.table.entry x = s.arena.heap.table.entry x := by
    intro x hx
    rw [hentry x hx]
    split
    · exact Or.inl rfl
    · exact Or.inr rfl
  constructor
  case start_lt =>
    rw [hstart]
    exact hI.start_lt
  case start_aligned =>
    rw [hstart]
    exact hI.start_aligned
  case total_pos =>
    rw [htotal]
    exact hTp
  case total_lt =>
    rw [htotal]
    exact hT
  case block_zero =>
    rcases hgain 0 (by omega) with h0 | h0
    · exact Or.inl h0
    · rw [h0]
      exact hI.block_zero
  case inner =>
    intro i hi hnext
    rw [htotal] at hi
    rcases hgain (i + 1) hi with h0 | h0
    · rw [h0] at hnext
      exact absurd hnext (by decide)
    · rw [h0] at hnext
      rw [hentry i (by omega), if_neg]
      · exact hI.inner i hi hnext
      · rintro ⟨hr, h1, h2⟩
        have hnot : ¬ (al.Reached s.arena.heap ∧ al.block s.arena.heap ≤ i + 1 ∧
            i + 1 < al.block s.arena.heap + released al.blocks) := by
          intro hc
          rw [hentry (i + 1) hi, if_pos hc] at h0
          rw [← h0] at hnext
          exact absurd hnext (by decide)
        have hend : i + 1 = al.block s.arena.heap + released al.blocks := by
          by_contra hne
          exact hnot ⟨hr, by omega, by omega⟩
        rw [hend, hsh.behind_released (by omega)] at hnext
        cases hnext
  case shows =>
    intro al' hal'
    have hmem : al' ∈ s.live := List.mem_of_mem_erase hal'
    have hsh' := hI.shows al' hmem
    refine hsh'.congr hstart htotal (fun x hx => ?_) (fun h1 hlt => ?_)
    · have hx' := Finset.mem_Ico.mp hx
      have hin' := hsh'.inside
      rw [hentry x (by omega), if_neg]
      rintro ⟨-, h1, h2⟩
      exact Finset.disjoint_left.mp (hother al' hal')
        (Finset.mem_Ico.mpr ⟨h1, by omega⟩) hx
    · rcases hgain _ hlt with h0 | h0
      · rw [h0]
        decide
      · rw [h0]
        exact hsh'.single h1 hlt
  case apart =>
    simpa only [Allocation.range_congr hstart] using hapart

/-- **Every call of a history keeps the invariant.** -/
theorem HeapStep.inv {s s' : HeapState} {l : HeapCall} (hI : HeapInv s) (h : HeapStep s l s') :
    HeapInv s' := by
  cases h with
  | malloc hn hm =>
    have hT := hI.total_lt
    rcases heapMalloc_ok (by omega) hm with ⟨-, rfl, rfl⟩ | ⟨h0, b, rfl, hmarked⟩
    · simpa using hI.malloc_zero
    · refine hI.marked hn h0 hmarked ?_
      split
      · exact Or.inl rfl
      · exact Or.inr rfl
  | free hal hf => exact hI.free hal hf
  | write _ _ _ =>
    exact ⟨hI.start_lt, hI.start_aligned, hI.total_pos, hI.total_lt, hI.block_zero, hI.inner,
      fun al hal => ⟨(hI.shows al hal).placed, (hI.shows al hal).pos, (hI.shows al hal).fits,
        (hI.shows al hal).inside, (hI.shows al hal).words, (hI.shows al hal).single⟩, hI.apart⟩

/-- **The invariant holds after every history.** -/
theorem heapInv_of_run {s s' : HeapState} {tr : List (HeapState × HeapCall)} (hs : FreshHeap s)
    (h : Run HeapStep s tr s') : HeapInv s' :=
  h.invariant (fun _ _ _ hI hl => hl.inv hI) hs.inv.1

/-! ## 6. Live allocations are sound -/

/-- **Live allocations are aligned, inside the heap, large enough, marked and disjoint**, after
every history from a fresh heap of any size, whatever was leaked on the way. -/
theorem live_allocations_sound {s s' : HeapState} {tr : List (HeapState × HeapCall)}
    (hs : FreshHeap s) (h : Run HeapStep s tr s') :
    (∀ al ∈ s'.live,
      al.address % 4096 = 0 ∧
      al.address = heapGetAddressFromBlock s'.arena.heap (al.block s'.arena.heap) ∧
      al.block s'.arena.heap + al.blocks ≤ s'.arena.heap.table.total ∧
      al.amount ≤ 4096 * al.blocks ∧
      ∀ i ∈ al.range s'.arena.heap,
        heapEntryIsTaken (s'.arena.heap.table.entry i) = true) ∧
      s'.live.Pairwise fun al al' =>
        Disjoint (al.range s'.arena.heap) (al'.range s'.arena.heap) := by
  have hI := heapInv_of_run hs h
  refine ⟨fun al hal => ?_, hI.apart⟩
  have hsh := hI.shows al hal
  refine ⟨?_, hsh.placed, hsh.inside, hsh.fits, fun i hi => ?_⟩
  · rw [hsh.placed, heapGetAddressFromBlock_eq]
    have := hI.start_aligned
    omega
  · simpa [heapEntryIsFree] using hsh.taken hi

/-- A heap of `blocks` free blocks at `start`, over the memory `mem`. -/
def heapAt (start blocks : Nat) (mem : Mem) : HeapState :=
  ⟨⟨⟨⟨blocks, fun _ => 0⟩, start⟩, mem⟩, []⟩

/-- `heap_create` builds such a heap. -/
theorem freshHeap_at {start n : Nat} (hs : start < 2 ^ 32) (hal : start % 4096 = 0) (h0 : 0 < n)
    (hn : n < 2 ^ 20) (mem : Mem) : FreshHeap (heapAt start n mem) := by
  have hentries : (fun i => if i < n then heapEntryFree else (0 : HeapEntry)) = fun _ => 0 := by
    funext i
    split <;> rfl
  have hstart : heapValidateAlignment start = true := by
    simp only [heapValidateAlignment, beq_iff_eq]
    exact hal
  have hend : heapValidateAlignment ((start + n * 4096) % 2 ^ 32) = true := by
    simp only [heapValidateAlignment, beq_iff_eq]
    omega
  have hvalid : heapValidateTable start ((start + n * 4096) % 2 ^ 32) ⟨n, fun _ => 0⟩ = ok := by
    simp only [heapValidateTable, kernelHeapBlockSize]
    rw [if_neg (by omega)]
  refine ⟨rfl, fun _ => 0, mem, start, n * 4096, ⟨n, fun _ => 0⟩, hs, by omega, ?_, ?_⟩
  · simp only [heapCreateTable, kernelHeapBlockSize]
    rw [if_neg (by omega), Nat.mul_div_cancel _ (by decide)]
  · simp only [heapCreate, kernelHeapBlockSize, hstart, hend, hvalid, hentries, heapAt]
    simp

/-- A heap of `blocks` free blocks at the kernel's heap address, over zeroed memory. -/
def newHeap (blocks : Nat) : HeapState :=
  ⟨⟨⟨⟨blocks, fun _ => 0⟩, memoryHeapStartAddress⟩, fun _ => 0⟩, []⟩

theorem freshHeap_new {n : Nat} (h0 : 0 < n) (hn : n < 2 ^ 20) : FreshHeap (newHeap n) :=
  freshHeap_at (by decide) (by decide) h0 hn _

/-- Two allocations are made and the first is freed: the second is still sound, though the last
block of the first is lost. -/
theorem live_allocations_sound_four : ∃ tr s', Run HeapStep (newHeap 4) tr s' ∧
    s'.live = [⟨memoryHeapStartAddress + 8192, 100⟩] ∧
    heapEntryIsTaken (s'.arena.heap.table.entry 1) = true ∧
    ∀ al ∈ s'.live, ∀ i ∈ al.range s'.arena.heap,
      heapEntryIsTaken (s'.arena.heap.table.entry i) = true := by
  have hrun := ((((Run.refl (newHeap 4) : Run HeapStep _ _ _).tail
    (HeapStep.malloc (n := 5000) (by decide) rfl)).tail
    (HeapStep.malloc (n := 100) (by decide) rfl)).tail
    (@HeapStep.free _ ⟨memoryHeapStartAddress, 5000⟩ _ (by decide) rfl))
  exact ⟨_, _, hrun, by decide, by decide, fun al hal =>
    ((live_allocations_sound (freshHeap_new (by decide) (by decide)) hrun).1 al hal).2.2.2.2⟩

end KokoOs
