/-
# Objects of one block

An object of the kernel -- a path node, a string, a descriptor -- has a block of the heap to
itself, whose word is `0x41` (`Held`).  `Touches T W` is the frame of a call in terms of objects:
apart from the blocks in `T`, every held block stays held and keeps its bytes, and outside the
heap memory changes in `W` only.  Freeing an object may clear words behind it that a longer
allocation has lost, but never the word of an object, so objects can be reasoned about one by one.

* **Making.**  `KernelHeap.alloc`: a request for one to 4096 bytes makes an object, which is no object
  that was held before (`New.ne`).  What a call has touched of objects that it made itself does not
  matter to its caller (`Touches.trans'`).
* **Releasing.**  `KernelHeap.release`: the block is cleared, and no other object is touched.

This is the first of two accounts of the heap.  It says that what one has stays; that nothing else has
been taken needs the second (`KernelOwn.lean`).
-/
import KokoOs.KernelHeap

namespace KokoOs

open Bytes

/-! ## 1. Held blocks -/

/-- The address of block `b` of the kernel's heap. -/
def blockAt (b : Nat) : Nat := memoryHeapStartAddress + 4096 * b

/-- Block `b` is an object: an allocation of one block, or the first block of a longer one. -/
structure Held (a : Arena) (b : Nat) : Prop where
  lt : b < 25600
  word : a.heap.table.entry b = 0x41

theorem blockAt_pos (b : Nat) : 0 < blockAt b := by
  unfold blockAt
  simp only [memoryHeapStartAddress]
  omega

theorem blockAt_lt {b : Nat} (hb : b < 25600) : blockAt b < 2 ^ 31 := by
  unfold blockAt
  simp only [memoryHeapStartAddress]
  omega

theorem blockAt_inj {b c : Nat} (h : blockAt b = blockAt c) : b = c := by
  unfold blockAt at h
  omega

/-- Different blocks do not overlap. -/
theorem blockAt_le {b c : Nat} (h : b ≠ c) :
    blockAt b + 4096 ≤ blockAt c ∨ blockAt c + 4096 ≤ blockAt b := by
  unfold blockAt
  omega

/-- Bytes of different blocks have different addresses. -/
theorem blockAt_apart {b c j : Nat} (hbc : b ≠ c) (hj : j < 4096) :
    ¬ (blockAt c ≤ blockAt b + j ∧ blockAt b + j < blockAt c + 4096) := by
  unfold blockAt
  omega

theorem KernelHeap.blockAt_eq {a : Arena} (h : KernelHeap a) {b : Nat} (hb : b < 25600) :
    heapGetAddressFromBlock a.heap b = blockAt b := h.address hb

/-- The address is not one of the heap's. -/
def OutsideHeap (x : Nat) : Prop := x < memoryHeapStartAddress ∨ blockAt 25600 ≤ x

theorem OutsideHeap.not_block {x b : Nat} (h : OutsideHeap x) (hb : b < 25600) :
    ¬ (blockAt b ≤ x ∧ x < blockAt b + 4096) := by
  unfold OutsideHeap blockAt at h
  unfold blockAt
  omega

/-! ## 2. What a call touches -/

/-- Apart from the blocks in `T`, objects stay what they are, and outside the heap memory
changes in `W` only. -/
structure Touches (T W : Set Nat) (a a' : Arena) : Prop where
  kernel : KernelHeap a'
  held : ∀ b, b ∉ T → Held a b → Held a' b
  bytes : ∀ b, b ∉ T → Held a b → ∀ j < 4096, a'.mem (blockAt b + j) = a.mem (blockAt b + j)
  outside : ∀ x, OutsideHeap x → x ∉ W → a'.mem x = a.mem x

theorem Touches.refl {a : Arena} (hk : KernelHeap a) (T W : Set Nat) : Touches T W a a :=
  ⟨hk, fun _ _ h => h, fun _ _ _ _ _ => rfl, fun _ _ _ => rfl⟩

theorem Touches.trans {T W : Set Nat} {a a' a'' : Arena} (h : Touches T W a a')
    (h' : Touches T W a' a'') : Touches T W a a'' where
  kernel := h'.kernel
  held b hb hheld := h'.held b hb (h.held b hb hheld)
  bytes b hb hheld j hj := (h'.bytes b hb (h.held b hb hheld) j hj).trans (h.bytes b hb hheld j hj)
  outside x hx hW := (h'.outside x hx hW).trans (h.outside x hx hW)

/-- Touching what did not exist before does not matter. -/
theorem Touches.trans' {T T' W : Set Nat} {a a' a'' : Arena} (h : Touches T W a a')
    (h' : Touches T' W a' a'') (hf : ∀ b ∈ T', ¬ Held a b) : Touches T W a a'' where
  kernel := h'.kernel
  held b hb hheld := h'.held b (fun hc => hf b hc hheld) (h.held b hb hheld)
  bytes b hb hheld j hj := (h'.bytes b (fun hc => hf b hc hheld) (h.held b hb hheld) j hj).trans
    (h.bytes b hb hheld j hj)
  outside x hx hW := (h'.outside x hx hW).trans (h.outside x hx hW)

theorem Touches.mono {T T' W W' : Set Nat} {a a' : Arena} (h : Touches T W a a') (hT : T ⊆ T')
    (hW : W ⊆ W') : Touches T' W' a a' :=
  ⟨h.kernel, fun b hb => h.held b fun hc => hb (hT hc), fun b hb => h.bytes b fun hc => hb (hT hc),
    fun x hx hx' => h.outside x hx fun hc => hx' (hW hc)⟩

theorem Frame.held {W : Set Nat} {a a' : Arena} (hk : KernelHeap a) (h : Frame W a a') {b : Nat}
    (hb : Held a b) : Held a' b :=
  ⟨hb.lt, (h.taken b (by rw [hk.total]; exact hb.lt) (by rw [hb.word]; decide)).trans hb.word⟩

/-- What is framed touches no object whose bytes are not written. -/
theorem Frame.touches {W : Set Nat} {a a' : Arena} (hk : KernelHeap a) (hk' : KernelHeap a')
    (h : Frame W a a') :
    Touches {b | ∃ x ∈ W, blockAt b ≤ x ∧ x < blockAt b + 4096} W a a' where
  kernel := hk'
  held b _ hb := h.held hk hb
  bytes b hbT hb j hj := by
    refine h.mem _ ?_ fun hW => hbT ⟨_, hW, by omega, by omega⟩
    rintro ⟨c, hc, hfree, hlo, hhi⟩
    rw [hk.total] at hc
    rw [hk.blockAt_eq hc] at hlo hhi
    have hne : b ≠ c := by
      rintro rfl
      rw [hb.word] at hfree
      exact absurd hfree (by decide)
    exact blockAt_apart hne hj ⟨hlo, hhi⟩
  outside x hx hW := by
    refine h.mem x ?_ hW
    rintro ⟨c, hc, -, hlo, hhi⟩
    rw [hk.total] at hc
    rw [hk.blockAt_eq hc] at hlo hhi
    exact hx.not_block hc ⟨hlo, hhi⟩

/-- Rewriting memory inside block `b`. -/
theorem Touches.store {a : Arena} (hk : KernelHeap a) (b : Nat) {m : Mem}
    (h : ∀ x, ¬ (blockAt b ≤ x ∧ x < blockAt b + 4096) → m x = a.mem x) (hb : b < 25600) :
    Touches {b} ∅ a ⟨a.heap, m⟩ where
  kernel := hk.congr rfl
  held _ _ hc := ⟨hc.lt, hc.word⟩
  bytes _ hcb _ _ hj := h _ (blockAt_apart (fun hc => hcb (Set.mem_singleton_iff.mpr hc)) hj)
  outside x hx _ := h x (hx.not_block hb)

/-- Rewriting memory outside the heap. -/
theorem Touches.store_outside {a : Arena} (hk : KernelHeap a) {W : Set Nat} {m : Mem}
    (hW : ∀ x ∈ W, OutsideHeap x) (h : ∀ x, x ∉ W → m x = a.mem x) :
    Touches ∅ W a ⟨a.heap, m⟩ where
  kernel := hk.congr rfl
  held _ _ hc := ⟨hc.lt, hc.word⟩
  bytes _ _ hc _ _ := h _ fun hin => (hW _ hin).not_block hc.lt ⟨by omega, by omega⟩
  outside x _ hxW := h x hxW

/-! ## 3. Making and releasing objects -/

/-- `a'` is `a` with a new object, at block `b`, and whatever has been written into it. -/
structure New (a a' : Arena) (b : Nat) : Prop where
  touches : Touches ∅ ∅ a a'
  held : Held a' b
  free : heapEntryIsFree (a.heap.table.entry b) = true

theorem New.fresh {a a' : Arena} {b : Nat} (h : New a a' b) : ¬ Held a b := by
  intro hheld
  have hfree := h.free
  rw [hheld.word] at hfree
  exact absurd hfree (by decide)

/-- An object that was held before is another one. -/
theorem New.ne {a a' : Arena} {b c : Nat} (h : New a a' b) (hc : Held a c) : c ≠ b := by
  rintro rfl
  exact h.fresh hc

/-- What becomes of objects that did not exist before does not matter. -/
theorem New.trans {T : Set Nat} {a a' a'' : Arena} {b : Nat} (h : New a a' b)
    (h' : Touches T ∅ a' a'') (hT : ∀ c ∈ T, ¬ Held a c) (hb : Held a'' b) : New a a'' b :=
  ⟨h.touches.trans' h' hT, hb, h.free⟩

/-- Writing into the new object. -/
theorem New.store {a a' : Arena} {b : Nat} (h : New a a' b) {m : Mem}
    (hm : ∀ x, ¬ (blockAt b ≤ x ∧ x < blockAt b + 4096) → m x = a'.mem x) :
    New a ⟨a'.heap, m⟩ b :=
  h.trans (Touches.store h.touches.kernel b hm h.held.lt)
    (fun _ hc => Set.mem_singleton_iff.mp hc ▸ h.fresh) ⟨h.held.lt, h.held.word⟩

/-- What `heap_malloc` does to make the object: nothing else. -/
structure Alloc (a a' : Arena) (b : Nat) : Prop extends New a a' b where
  mem : a'.mem = a.mem
  card : (freeBlocks a'.heap).card + 1 = (freeBlocks a.heap).card
  back : ∀ c < 25600, heapEntryIsFree (a'.heap.table.entry c) = true →
    heapEntryIsFree (a.heap.table.entry c) = true
  words : ∀ c < 25600, a'.heap.table.entry c = if c = b then 0x41 else a.heap.table.entry c

/-- **A request for one to 4096 bytes makes an object.** -/
theorem KernelHeap.alloc {a a' : Arena} (hk : KernelHeap a) {n p : Nat} (h0 : 0 < n) (hn : n ≤ 4096)
    (h : heapMalloc n a = .ok p a') : ∃ b, p = blockAt b ∧ Alloc a a' b := by
  have hT := hk.total
  obtain ⟨b, hp, htook⟩ := heapMalloc_small h0 hn (by omega) h
  have hb : b < 25600 := hT ▸ htook.inside
  rcases hk.malloc (by omega) h with ⟨hz, -⟩ | ⟨c, -, -, -, hadd⟩
  · have hone := blocksOf_small h0 hn
    simp [blocksOf, hz] at hone
  · refine ⟨b, hp.trans (hk.blockAt_eq hb), ⟨?_, ⟨hb, htook.here (by omega)⟩, htook.free⟩,
      htook.mem, htook.card_freeBlocks (by omega), fun c hc hfree => ?_,
      fun c hc => htook.entry c (by omega)⟩
    · refine (hadd.frame.touches hk hadd.kernel).mono ?_ (Set.empty_subset _)
      rintro c ⟨x, hx, -⟩
      exact hx.elim
    · by_contra htaken
      rw [hadd.frame.taken c (by omega) (by simpa using htaken)] at hfree
      exact htaken hfree

/-- **Such a request returns** as long as there is a free block. -/
theorem KernelHeap.alloc_runs {stop : Halt → Prop} {a : Arena} (hk : KernelHeap a) {n : Nat}
    (h0 : 0 < n) (hn : n ≤ 4096) (hs : (freeBlocks a.heap).card = 0 → ∀ e, stop e) :
    Prog.Runs stop (heapMalloc n) a fun p a' => ∃ b, p = blockAt b ∧ Alloc a a' b := by
  refine Prog.runs_iff.mpr ⟨fun p a' h => hk.alloc h0 hn h, fun e a' h => hs ?_ e⟩
  by_contra hne
  obtain ⟨p, a'', hok⟩ := heapMalloc_small_returns h0 hn (Finset.card_ne_zero.mp hne)
  rw [hok] at h
  cases h

/-- **Releasing an object** clears its block, and touches no other object. -/
theorem KernelHeap.release {a a' : Arena} (hk : KernelHeap a) {b : Nat} (hb : Held a b)
    (h : heapFree (blockAt b) a = .ok () a') :
    Touches {b} ∅ a a' ∧ a'.mem = fill a.mem (blockAt b) 4096 0 ∧
      (freeBlocks a.heap).card + 1 ≤ (freeBlocks a'.heap).card := by
  obtain ⟨hk', hmem, hzero, hclear, hkeep⟩ := hk.free_block hb.lt h
  have hfree0 : heapEntryIsFree 0 = true := by decide
  refine ⟨⟨hk', fun c hcb hc => ⟨hc.lt, ?_⟩, fun c hcb _ j hj => ?_, fun x hx _ => ?_⟩, hmem, ?_⟩
  · have hne : c ≠ b := fun heq => hcb (Set.mem_singleton_iff.mpr heq)
    rw [hkeep c hc.lt hne (by rw [hc.word]; decide)]
    exact hc.word
  · have hne : c ≠ b := fun heq => hcb (Set.mem_singleton_iff.mpr heq)
    rw [hmem]
    exact fill_of_not_mem (blockAt_apart hne hj)
  · rw [hmem]
    exact fill_of_not_mem (hx.not_block hb.lt)
  · have hnot : b ∉ freeBlocks a.heap := by
      intro hin
      have hfree := (mem_freeBlocks.mp hin).2
      rw [hb.word] at hfree
      exact absurd hfree (by decide)
    rw [← Finset.card_insert_of_notMem hnot]
    refine Finset.card_le_card fun c hc => ?_
    rw [mem_freeBlocks, hk'.total]
    rcases Finset.mem_insert.mp hc with rfl | hc
    · exact ⟨hb.lt, by rw [hzero]; exact hfree0⟩
    · obtain ⟨hlt, hfree⟩ := mem_freeBlocks.mp hc
      rw [hk.total] at hlt
      refine ⟨hlt, ?_⟩
      rcases hclear c hlt with hz | hsame
      · rw [hz]
        exact hfree0
      · rw [hsame]
        exact hfree

/-- **Releasing an object does not panic.** -/
theorem KernelHeap.release_runs {stop : Halt → Prop} {a : Arena} (hk : KernelHeap a) {b : Nat}
    (hb : Held a b) : Prog.Runs stop (heapFree (blockAt b)) a fun _ a' =>
      Touches {b} ∅ a a' ∧ a'.mem = fill a.mem (blockAt b) 4096 0 ∧
        (freeBlocks a.heap).card + 1 ≤ (freeBlocks a'.heap).card := by
  have hlt := hb.lt
  obtain ⟨a', h⟩ : ∃ a', heapFree (blockAt b) a = .ok () a' := by
    refine heapFree_returns ?_ ?_
    · rw [hk.start]
      exact Nat.le_add_right _ _
    · rw [blockAt, hk.freeStartBlock hlt, hb.word]
      decide
  exact Prog.Runs.of_ok h (hk.release hb h)

end KokoOs
