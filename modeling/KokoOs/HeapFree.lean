/-
# What `heap_free` gives back

`heap_free` is meant to release every block of the allocation whose address it is given and to
zero their bytes.  Its loop stops at the first word without `HEAP_HAS_NEXT`, and the last block
of a longer allocation is such a word; and the index of the zeroing does not move with the loop.

* **One call.**  `freesExactly_iff`: a live allocation is released exactly -- its words, its bytes,
  nothing else -- if and only if it is a single block at an address the pointer difference can reach.
* **Whole histories.**  `tableFree_iff`: a history that frees everything ends with a free table if and
  only if no request was for more than one block and no empty request met a free block 0
  (`KeepsTrack`).  A block that is `Lost` on the way stays lost, whatever is called afterwards: a
  later request may not take it, and no call clears its word, since none that a client may make has
  its address.

`heapFree_gives_back_iff` has both, over all histories.  The shortest history that loses a block is an
allocation of 8192 bytes that is freed again (`heapFree_loses_last_block`).
-/
import KokoOs.HeapInv

namespace KokoOs

open Bytes Runs

/-! ## 1. Releasing one allocation -/

/-- `heap_free` releases exactly the allocation: its words become free, the bytes of its blocks
zero, every other word and every other byte of the heap stays. -/
def FreesExactly (a : Arena) (al : Allocation) : Prop :=
  ∃ a', heapFree al.address a = .ok () a' ∧
    (∀ i < a.heap.table.total, a'.heap.table.entry i =
      if i ∈ al.range a.heap then heapEntryFree else a.heap.table.entry i) ∧
    ∀ i < a.heap.table.total, ∀ j < 4096, a'.mem (heapGetAddressFromBlock a.heap i + j) =
      if i ∈ al.range a.heap then 0 else a.mem (heapGetAddressFromBlock a.heap i + j)

/-- Different blocks have different bytes. -/
theorem blockAddress_apart {heap : Heap} {b c j : Nat} (hb : b < 2 ^ 20) (hc : c < 2 ^ 20)
    (hbc : b ≠ c) (hj : j < 4096) :
    ¬ (heapGetAddressFromBlock heap c ≤ heapGetAddressFromBlock heap b + j ∧
      heapGetAddressFromBlock heap b + j < heapGetAddressFromBlock heap c + 4096) := by
  simp only [heapGetAddressFromBlock_eq]
  omega

/-- `heap_free` returns when the address is not below the heap and its word is a first one. -/
theorem heapFree_returns {a : Arena} {p : Nat} (hp : a.heap.startAddress ≤ p)
    (hf : heapEntryIsFirst (a.heap.table.entry (heapFreeStartBlock a.heap p)) = true) :
    ∃ a', heapFree p a = .ok () a' := by
  cases h : heapFree p a with
  | ok u a' => exact ⟨a', rfl⟩
  | error e a' =>
    obtain ⟨-, -, hlt | hnf⟩ := heapFree_error h
    · omega
    · rw [hf] at hnf
      exact absurd hnf (by decide)

/-- **When an allocation is released exactly.** -/
theorem freesExactly_iff {s : HeapState} (hI : HeapInv s) {al : Allocation} (hal : al ∈ s.live) :
    FreesExactly s.arena al ↔ al.blocks = 1 ∧ al.Reached s.arena.heap := by
  have hsh := hI.shows al hal
  have hb := hsh.block_lt hI
  have hin := hsh.inside
  have hpos := hsh.pos
  have hT := hI.total_lt
  constructor
  · rintro ⟨a', hfree, hwords, -⟩
    obtain ⟨-, -, hentry⟩ := free_live hI hal hfree
    -- the words of the first and of the last block decide
    have hcleared : ∀ i < al.blocks, al.Reached s.arena.heap ∧ i < released al.blocks := by
      intro i hi
      have h1 := hentry (al.block s.arena.heap + i) (by omega)
      have hmem : al.block s.arena.heap + i ∈ al.range s.arena.heap :=
        Finset.mem_Ico.mpr ⟨by omega, by omega⟩
      rw [hwords _ (by omega), if_pos hmem] at h1
      by_contra hno
      rw [if_neg (fun hc => hno ⟨hc.1, by omega⟩), hsh.words i hi] at h1
      rcases runEntry_cases al.blocks i with h | h | h <;> rw [h] at h1 <;>
        exact absurd h1 (by decide)
    have hlast := (hcleared (al.blocks - 1) (by omega)).2
    refine ⟨?_, (hcleared 0 hpos).1⟩
    unfold released at hlast
    omega
  · rintro ⟨hk, hr⟩
    have hidx := freeStartBlock_of_reached hsh.placed hr
    have hple : s.arena.heap.startAddress ≤ al.address := by
      rw [hsh.placed, heapGetAddressFromBlock_eq]
      have := hr.1
      omega
    obtain ⟨a', hfree⟩ := heapFree_returns hple (by rw [hidx, hsh.first]; decide)
    obtain ⟨-, -, hentry⟩ := free_live hI hal hfree
    obtain ⟨-, -, m, hc, -⟩ := heapFree_ok hfree
    rw [hidx] at hc
    have hrange : ∀ i, i ∈ al.range s.arena.heap ↔ i = al.block s.arena.heap := by
      intro i
      rw [Allocation.range, Finset.mem_Ico]
      omega
    refine ⟨a', hfree, fun i hi => ?_, fun i hi j hj => ?_⟩
    · rw [hentry i hi, hk]
      have hone : released 1 = 1 := rfl
      by_cases hib : i = al.block s.arena.heap
      · rw [if_pos ⟨hr, by omega, by omega⟩, if_pos ((hrange i).mpr hib)]
      · rw [if_neg (fun hc' => hib (by omega)), if_neg (fun hc' => hib ((hrange i).mp hc'))]
    · rw [hc.mem]
      by_cases hib : i = al.block s.arena.heap
      · rw [if_pos ((hrange i).mpr hib), fill_of_mem (by rw [hib]; omega)]
      · rw [if_neg (fun hc' => hib ((hrange i).mp hc')), fill_of_not_mem
          (blockAddress_apart (by omega) hb hib hj)]

/-! ## 2. Whole histories -/

/-- Every word of the table is free. -/
def TableFree (heap : Heap) : Prop := ∀ i < heap.table.total, heap.table.entry i = heapEntryFree

/-- The calls that lose no block: a request is for one block and is not answered by NULL (as it
is for the block the address space wraps around at), or it rounds to zero and block 0 is taken;
an address that is freed is one `heap_free` can reach. -/
def KeepsTrack (s : HeapState) : HeapCall → Prop
  | .malloc n p => (blocksOf n = 1 ∧ p ≠ 0) ∨
      (heapAlignAmountOfBytesRequested n = 0 ∧ heapEntryIsTaken (s.arena.heap.table.entry 0) = true)
  | .free al => al.Reached s.arena.heap
  | .write _ _ => True

/-- Nothing is lost: every allocation is a single block, and every word that is not free
belongs to one. -/
structure NoLoss (s : HeapState) : Prop where
  inv : HeapInv s
  single : ∀ al ∈ s.live, al.blocks = 1
  owned : ∀ x < s.arena.heap.table.total, s.arena.heap.table.entry x ≠ heapEntryFree →
    ∃ al ∈ s.live, x ∈ al.range s.arena.heap

/-- A word is lost: it is taken, and it belongs to no live allocation or is the last word of a
longer one, which `heap_free` will not clear. -/
def Lost (s : HeapState) (x : Nat) : Prop :=
  x < s.arena.heap.table.total ∧ heapEntryIsFree (s.arena.heap.table.entry x) = false ∧
    (s.arena.heap.table.entry x = heapEntryTaken ∨ ∀ al ∈ s.live, x ∉ al.range s.arena.heap)

theorem NoLoss.start {s : HeapState} (h : FreshHeap s) : NoLoss s where
  inv := h.inv.1
  single := by
    rw [h.1]
    exact fun al hal => absurd hal (by simp)
  owned := fun x hx hne => absurd (h.inv.2 x hx) hne

/-- A request that keeps track loses nothing. -/
theorem NoLoss.malloc {s : HeapState} (hN : NoLoss s) {n p : Nat} {a' : Arena}
    (hk : KeepsTrack s (.malloc n p)) (hn : n < 2 ^ 32) (hm : heapMalloc n s.arena = .ok p a') :
    NoLoss ⟨a', if p = 0 then s.live else ⟨p, n⟩ :: s.live⟩ := by
  have hI := hN.inv
  have hT := hI.total_lt
  have hinv := (HeapStep.malloc hn hm).inv hI
  rcases heapMalloc_ok (by omega) hm with ⟨h0, rfl, rfl⟩ | ⟨h0, b, rfl, hmarked⟩
  · -- block 0 was taken, so its word is the one that is written
    have hzero : s.arena.heap.table.entry 0 = 0x41 := by
      rcases hk with ⟨hone, -⟩ | ⟨-, htaken⟩
      · simp [blocksOf, h0] at hone
      · refine hI.block_zero.resolve_left fun hz => ?_
        rw [hz] at htaken
        exact absurd htaken (by decide)
    refine ⟨hinv, hN.single, fun x hx hne => hN.owned x hx fun hx0 => hne ?_⟩
    have hx' : x < s.arena.heap.table.total := hx
    have hxpos : x ≠ 0 := by
      rintro rfl
      rw [hzero] at hx0
      exact absurd hx0 (by decide)
    have hent : (s.arena.heap.table.setEntry 0 0x41).entry x = s.arena.heap.table.entry x := by
      rw [HeapTable.entry_setEntry, if_neg (by omega)]
    exact hent.trans hx0
  · have hone : blocksOf n = 1 ∧ heapGetAddressFromBlock s.arena.heap b ≠ 0 := by
      rcases hk with hone | ⟨hzero, -⟩
      · exact hone
      · exact absurd hzero h0
    obtain ⟨hblock, -⟩ := hmarked.shows hI hn h0
    rw [if_neg hone.2] at hinv ⊢
    refine ⟨hinv, fun al hal => ?_, fun x hx hne => ?_⟩
    · rcases List.mem_cons.mp hal with rfl | hal
      · exact hone.1
      · exact hN.single al hal
    · have hx' : x < s.arena.heap.table.total := hmarked.total ▸ hx
      have hne' : a'.heap.table.entry x ≠ 0 := hne
      rw [hmarked.entry x (by omega)] at hne'
      split at hne'
      · refine ⟨_, List.mem_cons_self, Finset.mem_Ico.mpr ?_⟩
        have hblocks : (⟨heapGetAddressFromBlock s.arena.heap b, n⟩ : Allocation).blocks
            = blocksOf n := rfl
        rw [hblock, hblocks]
        assumption
      · obtain ⟨al, hal, hmem⟩ := hN.owned x hx' hne'
        exact ⟨al, List.mem_cons_of_mem _ hal,
          (Allocation.range_congr hmarked.startAddress al).symm ▸ hmem⟩

/-- Freeing a reachable address loses nothing. -/
theorem NoLoss.free {s : HeapState} (hN : NoLoss s) {al : Allocation} (hal : al ∈ s.live)
    {a' : Arena} (hr : al.Reached s.arena.heap) (hf : heapFree al.address s.arena = .ok () a') :
    NoLoss ⟨a', s.live.erase al⟩ := by
  have hI := hN.inv
  obtain ⟨hstart, htotal, hentry⟩ := free_live hI hal hf
  refine ⟨hI.free hal hf, fun al' hal' => hN.single al' (List.mem_of_mem_erase hal'), ?_⟩
  intro x hx hne
  have hx' : x < s.arena.heap.table.total := htotal ▸ hx
  have hne' : a'.heap.table.entry x ≠ 0 := hne
  rw [hentry x hx', hN.single al hal] at hne'
  have hone : released 1 = 1 := rfl
  rw [hone] at hne'
  split at hne'
  · exact absurd rfl hne'
  · rename_i hout
    obtain ⟨al', hal', hmem⟩ := hN.owned x hx' hne'
    refine ⟨al', (List.mem_erase_of_ne ?_).mpr hal', ?_⟩
    · rintro rfl
      have hmem' := Finset.mem_Ico.mp hmem
      rw [hN.single _ hal] at hmem'
      exact hout ⟨hr, hmem'.1, hmem'.2⟩
    · exact (Allocation.range_congr hstart al').symm ▸ hmem

/-- **A call that keeps track loses nothing.** -/
theorem NoLoss.step {s s' : HeapState} {l : HeapCall} (hN : NoLoss s) (hk : KeepsTrack s l)
    (h : HeapStep s l s') : NoLoss s' := by
  have hinv := h.inv hN.inv
  cases h with
  | malloc hn hm => exact hN.malloc hk hn hm
  | free hal hf => exact hN.free hal hk hf
  | write _ _ _ => exact ⟨hinv, hN.single, hN.owned⟩

/-- **A call that does not keep track loses a block.** -/
theorem HeapStep.loses {s s' : HeapState} {l : HeapCall} (hI : HeapInv s) (hk : ¬ KeepsTrack s l)
    (h : HeapStep s l s') : ∃ x, Lost s' x := by
  have hT := hI.total_lt
  have hTp := hI.total_pos
  cases h with
  | @malloc n p a' hn hm =>
    rcases heapMalloc_ok (by omega) hm with ⟨h0, rfl, rfl⟩ | ⟨h0, b, rfl, hmarked⟩
    · have hfree : heapEntryIsFree (s.arena.heap.table.entry 0) = true := by
        by_contra hne
        exact hk (Or.inr ⟨h0, by simpa [heapEntryIsFree] using hne⟩)
      have hzero : (s.arena.heap.table.setEntry 0 0x41).entry 0 = 0x41 := by
        rw [HeapTable.entry_setEntry, if_pos rfl]
      refine ⟨0, hTp, (congrArg heapEntryIsFree hzero).trans (by decide), Or.inr ?_⟩
      intro al hal hmem
      have htaken := (hI.shows al hal).taken hmem
      rw [hfree] at htaken
      exact absurd htaken (by decide)
    · have hin := hmarked.inside
      have hpos : 0 < blocksOf n := blocksOf_pos h0
      by_cases hp : heapGetAddressFromBlock s.arena.heap b = 0
      · refine ⟨b, ?_, ?_, Or.inr ?_⟩
        · rw [hmarked.total]
          omega
        · rw [hmarked.entry b (by omega), if_pos ⟨Nat.le_refl _, by omega⟩]
          exact runEntry_taken _ _
        · rw [if_pos hp]
          intro al hal hmem
          rw [Allocation.range_congr hmarked.startAddress] at hmem
          exact Finset.disjoint_left.mp (hmarked.apart hI hal)
            (Finset.mem_Ico.mpr ⟨Nat.le_refl _, by omega⟩) hmem
      · have hlong : blocksOf n ≠ 1 := fun hone => hk (Or.inl ⟨hone, hp⟩)
        have hlast : a'.heap.table.entry (b + blocksOf n - 1) = 0x01 := by
          rw [hmarked.entry _ (by omega), if_pos (by omega), runEntry, if_neg (by omega),
            if_pos (by omega)]
        refine ⟨b + blocksOf n - 1, ?_, (congrArg heapEntryIsFree hlast).trans (by decide),
          Or.inl hlast⟩
        rw [hmarked.total]
        omega
  | @free al a' hal hf =>
    have hsh := hI.shows al hal
    have hin := hsh.inside
    have hpos := hsh.pos
    obtain ⟨hstart, htotal, hentry⟩ := free_live hI hal hf
    have hr : ¬ al.Reached s.arena.heap := hk
    refine ⟨al.block s.arena.heap, ?_, ?_, Or.inr ?_⟩
    · rw [htotal]
      omega
    · rw [hentry _ (by omega), if_neg fun hc => hr hc.1, hsh.first]
      decide
    · intro al' hal' hmem
      rw [Allocation.range_congr hstart] at hmem
      exact Finset.disjoint_left.mp ((hI.apart_erase hal).1 al' hal')
        (Finset.mem_Ico.mpr ⟨Nat.le_refl _, by omega⟩) hmem
  | write _ _ _ => exact absurd trivial hk

/-- **A lost block stays lost.** -/
theorem HeapStep.lost {s s' : HeapState} {l : HeapCall} (hI : HeapInv s) {x : Nat} (hx : Lost s x)
    (h : HeapStep s l s') : Lost s' x := by
  have hT := hI.total_lt
  obtain ⟨hlt, htaken, howner⟩ := hx
  cases h with
  | @malloc n p a' hn hm =>
    rcases heapMalloc_ok (by omega) hm with ⟨h0, rfl, rfl⟩ | ⟨h0, b, rfl, hmarked⟩
    · have hsame : (s.arena.heap.table.setEntry 0 0x41).entry x = s.arena.heap.table.entry x := by
        rw [HeapTable.entry_setEntry]
        split
        · obtain rfl : x = 0 := by omega
          refine (hI.block_zero.resolve_left fun hz => ?_).symm
          rw [hz] at htaken
          exact absurd htaken (by decide)
        · rfl
      exact ⟨hlt, (congrArg heapEntryIsFree hsame).trans htaken,
        howner.imp (fun h => hsame.trans h) id⟩
    · have hout : ¬ (b ≤ x ∧ x < b + blocksOf n) := FreeRun.not_mem hmarked.free htaken
      have hsame : a'.heap.table.entry x = s.arena.heap.table.entry x := by
        rw [hmarked.entry x (by omega), if_neg hout]
      refine ⟨hmarked.total.symm ▸ hlt, by rw [hsame]; exact htaken, howner.imp ?_ ?_⟩
      · exact fun h => hsame.trans h
      · intro hno al hal hmem
        rw [Allocation.range_congr hmarked.startAddress] at hmem
        split at hal
        · exact hno al hal hmem
        · rcases List.mem_cons.mp hal with rfl | hal
          · have hblock := (hmarked.shows hI hn h0).1
            rw [Allocation.block_congr hmarked.startAddress] at hblock
            rw [Allocation.range, hblock] at hmem
            exact hout (Finset.mem_Ico.mp hmem)
          · exact hno al hal hmem
  | @free al a' hal hf =>
    have hsh := hI.shows al hal
    obtain ⟨hstart, htotal, hentry⟩ := free_live hI hal hf
    have hpos := hsh.pos
    -- the word of `x` is neither that of the allocation's first block nor of an inner one
    have hout : ¬ (al.block s.arena.heap ≤ x ∧ x < al.block s.arena.heap + released al.blocks) := by
      rintro ⟨h1, h2⟩
      unfold released at h2
      rcases howner with hlast | hno
      · have hword := hsh.words (x - al.block s.arena.heap) (by omega)
        rw [Nat.add_sub_of_le h1, hlast, runEntry] at hword
        split at hword
        · exact absurd hword (by decide)
        · rw [if_neg (by omega)] at hword
          exact absurd hword (by decide)
      · exact hno al hal (Finset.mem_Ico.mpr ⟨h1, by omega⟩)
    have hsame : a'.heap.table.entry x = s.arena.heap.table.entry x := by
      rw [hentry x hlt, if_neg fun hc => hout hc.2]
    refine ⟨htotal.symm ▸ hlt, by rw [hsame]; exact htaken, howner.imp ?_ ?_⟩
    · exact fun h => hsame.trans h
    · intro hno al' hal' hmem
      rw [Allocation.range_congr hstart] at hmem
      exact hno al' (List.mem_of_mem_erase hal') hmem
  | write _ _ _ => exact ⟨hlt, htaken, howner⟩

/-- **When a history that frees everything leaves a free table.** -/
theorem tableFree_iff {s s' : HeapState} {tr : List (HeapState × HeapCall)} (hs : FreshHeap s)
    (h : Run HeapStep s tr s') (hlive : s'.live = []) :
    TableFree s'.arena.heap ↔ AllSteps KeepsTrack tr := by
  constructor
  · intro hfree
    by_contra hC
    obtain ⟨x, hx, htaken, -⟩ := h.damaged (I := HeapInv) (D := fun s => ∃ x, Lost s x)
      (fun _ _ _ hI hl => hl.inv hI) (fun _ _ _ hI hk hl => hl.loses hI hk)
      (fun _ _ _ hI hD hl => hD.imp fun _ hx => hl.lost hI hx) hs.inv.1 hC
    rw [hfree x hx] at htaken
    exact absurd htaken (by decide)
  · intro hC x hx
    have hN := h.invariant_on (fun _ _ _ hN hk hl => NoLoss.step hN hk hl) (NoLoss.start hs) hC
    by_contra hne
    obtain ⟨al, hal, -⟩ := hN.owned x hx hne
    rw [hlive] at hal
    exact absurd hal (by simp)

/-! ## 3. What `heap_free` gives back -/

/-- **`heap_free` gives back single blocks and loses the end of everything else.**  In every
reachable state an allocation is released exactly if and only if it is a single block that the
pointer difference reaches; and a history that has freed everything leaves a free table if and
only if all its calls kept track. -/
theorem heapFree_gives_back_iff {s s' : HeapState} {tr : List (HeapState × HeapCall)}
    (hs : FreshHeap s) (h : Run HeapStep s tr s') :
    (∀ al ∈ s'.live, FreesExactly s'.arena al ↔ al.blocks = 1 ∧ al.Reached s'.arena.heap) ∧
      (s'.live = [] → (TableFree s'.arena.heap ↔ AllSteps KeepsTrack tr)) :=
  ⟨fun _ hal => freesExactly_iff (heapInv_of_run hs h) hal, fun hlive => tableFree_iff hs h hlive⟩

/-- An allocation of one block is made and freed: it is released exactly, and the table is free
again. -/
theorem heapFree_gives_back_iff_four : ∃ tr s s', Run HeapStep (newHeap 4) tr s ∧
    ⟨memoryHeapStartAddress, 4096⟩ ∈ s.live ∧
    FreesExactly s.arena ⟨memoryHeapStartAddress, 4096⟩ ∧
    HeapStep s (.free ⟨memoryHeapStartAddress, 4096⟩) s' ∧ TableFree s'.arena.heap := by
  have hrun := (Run.refl (newHeap 4) : Run HeapStep _ _ _).tail
    (HeapStep.malloc (n := 4096) (by decide) rfl)
  have hfree := hrun.tail (@HeapStep.free _ ⟨memoryHeapStartAddress, 4096⟩ _ (by decide) rfl)
  refine ⟨_, _, _, hrun, by decide, ?_,
    @HeapStep.free _ ⟨memoryHeapStartAddress, 4096⟩ _ (by decide) rfl, ?_⟩
  · exact ((heapFree_gives_back_iff (freshHeap_new (by decide) (by decide)) hrun).1 _ (by decide)).mpr (by decide)
  · refine ((heapFree_gives_back_iff (freshHeap_new (by decide) (by decide)) hfree).2 (by decide)).mpr ?_
    refine AllSteps.append.mpr ⟨AllSteps.append.mpr ⟨fun _ hp => absurd hp (by simp), ?_⟩, ?_⟩
    · exact Or.inl (by decide)
    · change Allocation.Reached _ _
      decide

/-- Of an allocation of two blocks only the first is released: after everything has been freed,
the word of the second is still taken. -/
theorem heapFree_loses_last_block : ∃ tr s s', Run HeapStep (newHeap 4) tr s ∧
    ⟨memoryHeapStartAddress, 8192⟩ ∈ s.live ∧
    ¬ FreesExactly s.arena ⟨memoryHeapStartAddress, 8192⟩ ∧
    HeapStep s (.free ⟨memoryHeapStartAddress, 8192⟩) s' ∧ s'.live = [] ∧
    ¬ TableFree s'.arena.heap := by
  have hrun := (Run.refl (newHeap 4) : Run HeapStep _ _ _).tail
    (HeapStep.malloc (n := 8192) (by decide) rfl)
  refine ⟨_, _, _, hrun, by decide, fun hx => ?_,
    @HeapStep.free _ ⟨memoryHeapStartAddress, 8192⟩ _ (by decide) rfl, by decide,
    fun hfree => absurd (hfree 1 (by decide)) (by decide)⟩
  have hone := ((freesExactly_iff (heapInv_of_run (freshHeap_new (by decide) (by decide)) hrun) (by decide)).mp hx).1
  exact absurd hone (by decide)

end KokoOs
