/-
# Page tables are a total map from pages to entries

What a page directory is for is a function from page numbers to entries, `PageMap`; setting an
entry is an update of that function.  `Maps` is the relation between the function and the words
in memory: the directory words lead to 1024 tables, and the tables hold the values.

* **Reading.**  The walk of the hardware reads the map (`Maps.walk`).  Its indices come from shifts and
  masks, those of `paging_set` from quotients and remainders; `walk_indices` says that they agree.
* **Creating.**  `pagingCreateChunk_maps`: on a heap with 1026 free blocks the chunk that is created maps
  every page to itself.  The tables are different blocks because each of them was free when it was
  requested, and they are found again through the directory because blocks are aligned.
* **Setting.**  `pagingSetAll_maps`: every sequence of `paging_set` calls does to the words what it does
  to the function.  A call with an unaligned address is answered by an error and does nothing.
* **The result.**  `paging_total_map` puts the two together, over the heaps of arbitrary histories: every
  address below `2 ^ 32` is translated by the last entry that was set for its page, or to itself.
-/
import KokoOs.HeapBlock
import KokoOs.Paging

namespace KokoOs

open Bytes Runs

/-! ## 1. Words and bits -/

/-- Masking with `0xfffff000` clears the offset inside a page. -/
theorem and_pageMask {x : Nat} (h : x < 2 ^ 32) : x &&& 0xfffff000 = x - x % 4096 := by
  have hshift : x - x % 4096 = (x / 2 ^ 12) <<< 12 := by
    rw [Nat.shiftLeft_eq]
    omega
  have hmask : (0xfffff000 : Nat) = (2 ^ 20 - 1) <<< 12 := by decide
  rw [hshift, hmask]
  refine Nat.eq_of_testBit_eq fun i => ?_
  rw [Nat.testBit_and, Nat.testBit_shiftLeft, Nat.testBit_shiftLeft, Nat.testBit_two_pow_sub_one,
    Nat.testBit_div_two_pow]
  rcases Nat.lt_or_ge i 12 with hi | hi
  · have h12 : ¬ 12 ≤ i := by omega
    simp [h12]
  · rw [Nat.sub_add_cancel hi]
    rcases Nat.lt_or_ge i 32 with hi' | hi'
    · have hlt : i - 12 < 20 := by omega
      simp [hi, hlt]
    · rw [Nat.testBit_lt_two_pow (lt_of_lt_of_le h (Nat.pow_le_pow_right (by decide) hi'))]
      simp

/-- Flag bits do not disturb the address of a page. -/
theorem page_or_and_pageMask {p w : Nat} (hp : p % 4096 = 0) (hlt : p < 2 ^ 32) (hw : w < 4096) :
    p ||| w < 2 ^ 32 ∧ (p ||| w) &&& 0xfffff000 = p := by
  have hor : p ||| w = p + w := by
    have hsum := Nat.two_pow_add_eq_or_of_lt (i := 12) (b := w) (by omega) (p / 4096)
    have hpage : 2 ^ 12 * (p / 4096) = p := Nat.mul_div_cancel' (Nat.dvd_of_mod_eq_zero hp)
    rw [hpage] at hsum
    exact hsum.symm
  rw [hor]
  refine ⟨by omega, ?_⟩
  rw [and_pageMask (by omega)]
  omega

/-- The indices of the walk are quotients and remainders. -/
theorem walk_indices (v : Nat) : v >>> 22 = v / 4194304 ∧ (v >>> 12) &&& 0x3ff = v / 4096 % 1024 := by
  refine ⟨Nat.shiftRight_eq_div_pow v 22, ?_⟩
  rw [Nat.shiftRight_eq_div_pow]
  exact Nat.and_two_pow_sub_one_eq_mod (v / 4096) 10

/-- Different pages do not overlap. -/
theorem pages_apart {p q : Nat} (hp : p % 4096 = 0) (hq : q % 4096 = 0) (hne : p ≠ q) :
    p + 4096 ≤ q ∨ q + 4096 ≤ p := by
  omega

theorem wordAddress_page {p i : Nat} (hp : p % 4096 = 0) (hlt : p < 2 ^ 32) (hi : i < 1024) :
    wordAddress p i = p + 4 * i := by
  unfold wordAddress
  omega

/-! ## 2. Page maps -/

/-- The entry of every page. -/
abbrev PageMap := Nat → Nat

/-- Every page is mapped to itself. -/
def PageMap.identity (flags : UInt8) : PageMap := fun page => 4096 * page ||| flags.toNat

/-- One `paging_set` call on the map: it acts on aligned addresses only. -/
def PageMap.set (f : PageMap) (call : Nat × Nat) : PageMap :=
  if call.1 % 4096 = 0 then Function.update f (call.1 / 4096) call.2 else f

/-- The entry of the last call for the page of `v`, or the page itself if there is none. -/
def lastEntry (flags : UInt8) (calls : List (Nat × Nat)) (v : Nat) : Nat :=
  match calls.reverse.find? fun c => c.1 % 4096 == 0 && c.1 / 4096 == v / 4096 with
  | some c => c.2
  | none => (v &&& 0xfffff000) ||| flags.toNat

/-- The updates of the map keep the last one for each page. -/
theorem foldl_set_eq_lastEntry (flags : UInt8) {v : Nat} (hv : v < 2 ^ 32)
    (calls : List (Nat × Nat)) :
    calls.foldl PageMap.set (PageMap.identity flags) (v / 4096) = lastEntry flags calls v := by
  induction calls using List.reverseRecOn with
  | nil =>
    have hpage : 4096 * (v / 4096) = v &&& 0xfffff000 := by
      rw [and_pageMask hv]
      omega
    simp [lastEntry, PageMap.identity, hpage]
  | append_singleton calls c ih =>
    rw [List.foldl_append, List.foldl_cons, List.foldl_nil]
    -- the last call decides, unless it is unaligned or for another page
    have hother : ¬ (c.1 % 4096 = 0 ∧ c.1 / 4096 = v / 4096) →
        lastEntry flags (calls ++ [c]) v = lastEntry flags calls v := by
      intro hno
      have hmiss : (c.1 % 4096 == 0 && c.1 / 4096 == v / 4096) = false := by simpa using hno
      unfold lastEntry
      rw [List.reverse_append, List.reverse_singleton, List.singleton_append, List.find?_cons, hmiss]
    by_cases hal : c.1 % 4096 = 0
    · rw [PageMap.set, if_pos hal, Function.update_apply]
      by_cases hpage : v / 4096 = c.1 / 4096
      · rw [if_pos hpage]
        simp [lastEntry, hal, hpage]
      · rw [if_neg hpage, ih, hother fun hc => hpage hc.2.symm]
    · rw [PageMap.set, if_neg hal, ih, hother fun hc => hal hc.1]

/-! ## 3. The words of a page map -/

/-- The words at `chunk` are the page map `f`: they lead from the chunk to a directory, from the
directory to the tables, and the tables hold the entries. -/
structure Maps (m : Mem) (chunk directory : Nat) (tables : Nat → Nat) (f : PageMap) : Prop where
  chunk_page : chunk % 4096 = 0
  directory_page : directory % 4096 = 0 ∧ directory < 2 ^ 32
  table_page : ∀ i < 1024, tables i % 4096 = 0 ∧ tables i < 2 ^ 32
  table_ne : ∀ i < 1024, tables i ≠ chunk ∧ tables i ≠ directory
  table_inj : ∀ i < 1024, ∀ j < 1024, tables i = tables j → i = j
  chunk_word : u32 m chunk = directory
  directory_word : ∀ i < 1024, u32 m (directory + 4 * i) &&& 0xfffff000 = tables i
  table_word : ∀ i < 1024, ∀ j < 1024, u32 m (tables i + 4 * j) = f (1024 * i + j)

section Maps

variable {m : Mem} {chunk directory : Nat} {tables : Nat → Nat} {f : PageMap}

/-- **The walk reads the map.** -/
theorem Maps.walk (h : Maps m chunk directory tables f) {v : Nat} (hv : v < 2 ^ 32) :
    pagingWalk m directory v = f (v / 4096) := by
  have hi : v / 4194304 < 1024 := by omega
  have hj : v / 4096 % 1024 < 1024 := by omega
  obtain ⟨hd, hdlt⟩ := h.directory_page
  obtain ⟨ht, htlt⟩ := h.table_page _ hi
  simp only [pagingWalk]
  rw [(walk_indices v).1, (walk_indices v).2, wordAddress_page hd hdlt hi, h.directory_word _ hi,
    wordAddress_page ht htlt hj, h.table_word _ hi _ hj]
  congr 1
  omega

/-- **A call of `paging_set` that finds an aligned address updates the map.** -/
theorem Maps.set (h : Maps m chunk directory tables f) {v e : Nat} (hv : v < 2 ^ 32)
    (he : e < 2 ^ 32) (hal : v % 4096 = 0) :
    Maps (putU32 m (tables (v / 4194304) + 4 * (v / 4096 % 1024)) e) chunk directory tables
      (PageMap.set f (v, e)) := by
  have hi : v / 4194304 < 1024 := by omega
  obtain ⟨ht, -⟩ := h.table_page _ hi
  obtain ⟨hne_chunk, hne_dir⟩ := h.table_ne _ hi
  refine ⟨h.chunk_page, h.directory_page, h.table_page, h.table_ne, h.table_inj, ?_, ?_, ?_⟩
  · have := pages_apart ht h.chunk_page hne_chunk
    rw [u32_putU32_of_apart (by omega)]
    exact h.chunk_word
  · intro i hi'
    have := pages_apart ht h.directory_page.1 hne_dir
    rw [u32_putU32_of_apart (by omega)]
    exact h.directory_word i hi'
  · intro i hi' j hj
    unfold PageMap.set
    rw [if_pos hal, Function.update_apply]
    by_cases hsame : i = v / 4194304 ∧ j = v / 4096 % 1024
    · obtain ⟨rfl, rfl⟩ := hsame
      rw [if_pos (by omega), u32_putU32 _ _ he]
    · rw [if_neg (by omega), ← h.table_word i hi' j hj]
      refine u32_putU32_of_apart ?_
      by_cases hti : i = v / 4194304
      · subst hti
        omega
      · have := pages_apart ht (h.table_page i hi').1 fun heq => hti (h.table_inj _ hi _ hi' heq).symm
        omega

end Maps

/-- A call with an unaligned address answers `PAGING_MEMORY_NOT_ALIGNED` and changes nothing. -/
theorem pagingSetChunk_unaligned (chunk : Nat) {call : Nat × Nat} (h : call.1 % 4096 ≠ 0)
    (a : Arena) : pagingSetChunk chunk call a = .ok pagingMemoryNotAligned a := by
  have hal : pagingIsAligned call.1 = false := by simpa [pagingIsAligned] using h
  unfold pagingSetChunk pagingSet
  refine (Prog.bind_of_ok (m := get) rfl _).trans ?_
  rw [hal]
  rfl

/-- A call with an aligned address stores the entry through the directory. -/
theorem pagingSetChunk_aligned {a : Arena} {chunk directory : Nat} {tables : Nat → Nat}
    {f : PageMap} (hm : Maps a.mem chunk directory tables f) {call : Nat × Nat}
    (hv : call.1 < 2 ^ 32) (h : call.1 % 4096 = 0) :
    pagingSetChunk chunk call a = .ok ok ⟨a.heap,
      putU32 a.mem (tables (call.1 / 4194304) + 4 * (call.1 / 4096 % 1024)) call.2⟩ := by
  have hal : pagingIsAligned call.1 = true := by simpa [pagingIsAligned] using h
  have hi : call.1 / 4194304 < 1024 := by omega
  obtain ⟨hd, hdlt⟩ := hm.directory_page
  obtain ⟨ht, htlt⟩ := hm.table_page _ hi
  have hidx : pagingGetIndexes call.1 = ⟨ok, call.1 / 4096 % 1024, call.1 / 4194304⟩ := by
    unfold pagingGetIndexes
    rw [hal]
    simp only [Bool.not_true, Bool.false_eq_true, if_false, pagingPageEntries, pagingPageSize]
    congr 1
    omega
  unfold pagingSetChunk pagingSet
  refine (Prog.bind_of_ok (m := get) rfl _).trans ?_
  rw [hal, hidx, hm.chunk_word]
  simp only [Bool.not_true, Bool.false_eq_true, if_false, ne_eq, not_true_eq_false]
  refine (Prog.bind_of_ok (m := get) rfl _).trans ?_
  rw [wordAddress_page hd hdlt hi, hm.directory_word _ hi, wordAddress_page ht htlt (by omega)]
  rfl

/-- What a call answers. -/
def pagingSetCode (call : Nat × Nat) : Int :=
  if call.1 % 4096 = 0 then ok else pagingMemoryNotAligned

/-- **Every sequence of calls updates the map.** -/
theorem pagingSetAll_maps {chunk directory : Nat} {tables : Nat → Nat} {calls : List (Nat × Nat)} :
    ∀ {a : Arena} {f : PageMap}, Maps a.mem chunk directory tables f →
      (∀ c ∈ calls, c.1 < 2 ^ 32 ∧ c.2 < 2 ^ 32) →
      ∃ a', pagingSetAll chunk calls a = .ok (calls.map pagingSetCode) a' ∧
        Maps a'.mem chunk directory tables (calls.foldl PageMap.set f) := by
  induction calls with
  | nil => exact fun hm _ => ⟨_, rfl, hm⟩
  | cons c calls ih =>
    intro a f hm hlt
    obtain ⟨hv, he⟩ := hlt c List.mem_cons_self
    have hstep : ∃ a1, pagingSetChunk chunk c a = .ok (pagingSetCode c) a1 ∧
        Maps a1.mem chunk directory tables (PageMap.set f c) := by
      unfold pagingSetCode
      by_cases hal : c.1 % 4096 = 0
      · rw [if_pos hal]
        exact ⟨_, pagingSetChunk_aligned hm hv hal, hm.set hv he hal⟩
      · rw [if_neg hal, PageMap.set, if_neg hal]
        exact ⟨a, pagingSetChunk_unaligned chunk hal a, hm⟩
    obtain ⟨a1, hrun, hm1⟩ := hstep
    obtain ⟨a', hrest, hm'⟩ := ih hm1 fun c hc => hlt c (List.mem_cons_of_mem _ hc)
    refine ⟨a', ?_, hm'⟩
    unfold pagingSetAll
    rw [Prog.bind_of_ok hrun, Prog.bind_of_ok hrest]
    rfl

/-! ## 4. Creating the tables -/

/-- The inner loop writes the entries of one table and nothing else. -/
theorem pagingFillTable_spec (offset : Nat) {entry flags : Nat} (hp : entry % 4096 = 0)
    (hlt : entry < 2 ^ 32) (hf : flags < 256) :
    ∀ (fuel j : Nat) (m : Mem), j + fuel ≤ 1024 →
      (∀ k, j ≤ k → k < j + fuel → u32 (pagingFillTable entry offset flags fuel j m) (entry + 4 * k)
        = (offset + k * 4096) % 2 ^ 32 ||| flags) ∧
      ∀ x, ¬ (entry + 4 * j ≤ x ∧ x < entry + 4 * (j + fuel)) →
        pagingFillTable entry offset flags fuel j m x = m x
  | 0, j, m, _ => ⟨fun k h1 h2 => absurd h2 (by omega), fun _ _ => rfl⟩
  | fuel + 1, j, m, hj => by
    have haddr : wordAddress entry j = entry + 4 * j := wordAddress_page hp hlt (by omega)
    have hval : (offset + j * 4096) % 2 ^ 32 ||| flags < 2 ^ 32 :=
      Nat.or_lt_two_pow (Nat.mod_lt _ (by decide)) (by omega)
    obtain ⟨ih1, ih2⟩ := pagingFillTable_spec offset hp hlt hf fuel (j + 1)
      (putU32 m (entry + 4 * j) ((offset + j * 4096) % 2 ^ 32 ||| flags)) (by omega)
    unfold pagingFillTable
    rw [haddr]
    simp only [pagingPageSize]
    refine ⟨fun k h1 h2 => ?_, fun x hx => ?_⟩
    · rcases Nat.lt_or_ge j k with hk | hk
      · exact ih1 k (by omega) (by omega)
      · obtain rfl : k = j := by omega
        rw [u32_congr fun x h1 h2 => ih2 x (by omega), u32_putU32 _ _ hval]
    · rw [ih2 x (by omega), putU32_of_not_mem (by omega)]

/-- The state of the outer loop: the directory is block `db`, and `n` tables have been made, at
blocks `tb`, all of them different and taken. -/
structure Tables (heap : Heap) (flags : UInt8) (db : Nat) (tb : Nat → Nat) (n : Nat) (a : Arena) :
    Prop where
  startAddress : a.heap.startAddress = heap.startAddress
  total : a.heap.table.total = heap.table.total
  aligned : heap.startAddress % 4096 = 0
  total_lt : heap.table.total < 2 ^ 20
  directory_taken : db < heap.table.total ∧ heapEntryIsFree (a.heap.table.entry db) = false
  table_taken : ∀ i < n, tb i < heap.table.total ∧
    heapEntryIsFree (a.heap.table.entry (tb i)) = false
  table_ne : ∀ i < n, tb i ≠ db
  table_inj : ∀ i < n, ∀ j < n, tb i = tb j → i = j
  directory_word : ∀ i < n, u32 a.mem (heapGetAddressFromBlock heap db + 4 * i)
    = heapGetAddressFromBlock heap (tb i) ||| flags.toNat ||| 2
  table_word : ∀ i < n, ∀ j < 1024, u32 a.mem (heapGetAddressFromBlock heap (tb i) + 4 * j)
    = PageMap.identity flags (1024 * i + j)

section Tables

variable {heap : Heap} {flags : UInt8} {db n : Nat} {tb : Nat → Nat} {a : Arena}

/-- Different blocks of the heap are different pages. -/
theorem Tables.apart (h : Tables heap flags db tb n a) {b c : Nat} (hb : b < heap.table.total)
    (hc : c < heap.table.total) (hbc : b ≠ c) :
    heapGetAddressFromBlock heap b + 4096 ≤ heapGetAddressFromBlock heap c ∨
      heapGetAddressFromBlock heap c + 4096 ≤ heapGetAddressFromBlock heap b := by
  have hlt := h.total_lt
  exact pages_apart (blockAddress_aligned h.aligned b) (blockAddress_aligned h.aligned c)
    fun heq => hbc (blockAddress_inj (by omega) (by omega) heq)

/-- **One turn of the outer loop**: the block that was taken becomes table `n`. -/
theorem Tables.turn (h : Tables heap flags db tb n a) (hn : n < 1024) {b : Nat} {a1 : Arena}
    (ht : Took a a1 b) :
    Tables heap flags db (fun i => if i = n then b else tb i) (n + 1)
      ⟨a1.heap, putU32
        (pagingFillTable (heapGetAddressFromBlock heap b) (n * 4194304) flags.toNat 1024 0 a1.mem)
        (heapGetAddressFromBlock heap db + 4 * n)
        (heapGetAddressFromBlock heap b ||| flags.toNat ||| 2)⟩ := by
  have hT := h.total_lt
  have hb : b < heap.table.total := h.total ▸ ht.inside
  obtain ⟨hdb, hdtaken⟩ := h.directory_taken
  have hbd : db ≠ b := ht.ne_of_taken hdtaken
  have hbt : ∀ i < n, tb i ≠ b := fun i hi => ht.ne_of_taken (h.table_taken i hi).2
  have hflags : flags.toNat < 256 := flags.toNat_lt
  have hp := blockAddress_aligned h.aligned b
  have hplt := blockAddress_lt heap b
  have hbdir := h.apart hb hdb (Ne.symm hbd)
  obtain ⟨hfill, hframe⟩ := pagingFillTable_spec (n * 4194304) hp hplt hflags 1024 0 a1.mem
    (by omega)
  -- outside the new table and the directory word nothing changes
  have hkeep : ∀ x, (x + 4 ≤ heapGetAddressFromBlock heap b ∨
      heapGetAddressFromBlock heap b + 4096 ≤ x) →
      (x + 4 ≤ heapGetAddressFromBlock heap db + 4 * n ∨
        heapGetAddressFromBlock heap db + 4 * n + 4 ≤ x) →
      u32 (putU32 (pagingFillTable (heapGetAddressFromBlock heap b) (n * 4194304) flags.toNat 1024 0
        a1.mem) (heapGetAddressFromBlock heap db + 4 * n)
        (heapGetAddressFromBlock heap b ||| flags.toNat ||| 2)) x = u32 a.mem x := by
    intro x h1 h2
    rw [u32_putU32_of_apart (by omega), ← ht.mem]
    exact u32_congr fun y h3 h4 => hframe y (by omega)
  have hor : flags.toNat ||| 2 < 4096 := by
    have : flags.toNat ||| 2 < 2 ^ 12 := Nat.or_lt_two_pow (by omega) (by decide)
    exact this
  refine ⟨ht.startAddress.trans h.startAddress, ht.total.trans h.total, h.aligned, hT,
    ⟨hdb, ht.taken (by omega) hdtaken⟩, ?_, ?_, ?_, ?_, ?_⟩
  · intro i hi
    split
    · have hnew : heapEntryIsFree (a1.heap.table.entry b) = false := by
        rw [ht.here (by rw [h.total]; omega)]
        decide
      exact ⟨hb, hnew⟩
    · obtain ⟨h1, h2⟩ := h.table_taken i (by omega)
      exact ⟨h1, ht.taken (by omega) h2⟩
  · intro i hi
    split
    · exact Ne.symm hbd
    · exact h.table_ne i (by omega)
  · intro i hi j hj heq
    by_cases hin : i = n
    · by_cases hjn : j = n
      · omega
      · rw [if_pos hin, if_neg hjn] at heq
        exact absurd heq.symm (hbt j (by omega))
    · by_cases hjn : j = n
      · rw [if_neg hin, if_pos hjn] at heq
        exact absurd heq (hbt i (by omega))
      · rw [if_neg hin, if_neg hjn] at heq
        exact h.table_inj i (by omega) j (by omega) heq
  · intro i hi
    by_cases hin : i = n
    · subst hin
      rw [if_pos rfl]
      have hword := page_or_and_pageMask hp hplt hor
      rw [← Nat.or_assoc] at hword
      exact u32_putU32 _ _ hword.1
    · rw [if_neg hin]
      exact (hkeep _ (by omega) (by omega)).trans (h.directory_word i (by omega))
  · intro i hi j hj
    by_cases hin : i = n
    · subst hin
      rw [if_pos rfl]
      have hval := hfill j (by omega) (by omega)
      have hpage : i * 4194304 + j * 4096 = 4096 * (1024 * i + j) := by omega
      rw [Nat.mod_eq_of_lt (by omega), hpage] at hval
      refine Eq.trans (u32_putU32_of_apart ?_) hval
      omega
    · rw [if_neg hin]
      have htd := h.apart (h.table_taken i (by omega)).1 hdb (h.table_ne i (by omega))
      have htb := h.apart (h.table_taken i (by omega)).1 hb (hbt i (by omega))
      exact (hkeep _ (by omega) (by omega)).trans (h.table_word i (by omega) j hj)

/-- **The outer loop** makes all the tables, if there are blocks for them. -/
theorem Tables.loop : ∀ (fuel : Nat) {n : Nat} {tb : Nat → Nat} {a : Arena} {r : Nat},
    Tables heap flags db tb n a → n + fuel ≤ 1024 → fuel + r ≤ (freeBlocks a.heap).card →
    ∃ a' tb', pagingCreateTables (heapGetAddressFromBlock heap db) flags.toNat fuel n
        (n * 4194304 % 2 ^ 32) a = .ok () a' ∧
      Tables heap flags db tb' (n + fuel) a' ∧ r ≤ (freeBlocks a'.heap).card
  | 0, n, tb, a, r, h, _, hfree => ⟨a, tb, rfl, h, by omega⟩
  | fuel + 1, n, tb, a, r, h, hn, hfree => by
    have hT : a.heap.table.total ≤ 2 ^ 30 := by
      have := h.total_lt
      rw [h.total]
      omega
    obtain ⟨p, a1, hmalloc⟩ := heapMalloc_small_returns (n := 4 * pagingPageEntries) (a := a)
      (by decide) (by decide) (Finset.card_pos.mp (by omega))
    obtain ⟨b, rfl, htook⟩ := heapMalloc_small (by decide) (by decide) hT hmalloc
    have hcard := htook.card_freeBlocks hT
    have hturn := h.turn (by omega) htook
    obtain ⟨a', tb', hrun, htab, hr⟩ := Tables.loop fuel (r := r) hturn (by omega) (by
      change fuel + r ≤ (freeBlocks a1.heap).card
      omega)
    rw [Nat.add_right_comm, Nat.add_assoc] at htab
    refine ⟨a', tb', ?_, htab, hr⟩
    unfold pagingCreateTables
    refine (Prog.bind_of_ok hmalloc _).trans ?_
    refine (Prog.bind_of_ok (m := modify _) rfl _).trans ?_
    have haddr : heapGetAddressFromBlock a.heap b = heapGetAddressFromBlock heap b :=
      blockAddress_congr h.startAddress b
    have hdir : wordAddress (heapGetAddressFromBlock heap db) n
        = heapGetAddressFromBlock heap db + 4 * n :=
      wordAddress_page (blockAddress_aligned h.aligned db) (blockAddress_lt heap db) (by omega)
    have hoff : (n * 4194304 % 2 ^ 32 + pagingPageEntries * pagingPageSize) % 2 ^ 32
        = (n + 1) * 4194304 % 2 ^ 32 := by
      simp only [pagingPageEntries, pagingPageSize]
      omega
    have hlt : n * 4194304 < 2 ^ 32 := by omega
    rw [haddr, hdir, hoff, Nat.mod_eq_of_lt hlt]
    exact hrun

/-- The words of the finished tables, with a chunk that points to the directory in yet another
block, are those of the identity map. -/
theorem Tables.maps (h : Tables heap flags db tb 1024 a) {cb : Nat} {a1 : Arena}
    (ht : Took a a1 cb) :
    Maps (putU32 (memset a1.mem (heapGetAddressFromBlock heap cb) 0 4)
        (heapGetAddressFromBlock heap cb) (heapGetAddressFromBlock heap db))
      (heapGetAddressFromBlock heap cb) (heapGetAddressFromBlock heap db)
      (fun i => heapGetAddressFromBlock heap (tb i)) (PageMap.identity flags) := by
  have hT := h.total_lt
  have hcb : cb < heap.table.total := h.total ▸ ht.inside
  obtain ⟨hdb, hdtaken⟩ := h.directory_taken
  have hne : ∀ b < heap.table.total, heapEntryIsFree (a.heap.table.entry b) = false →
      heapGetAddressFromBlock heap b + 4096 ≤ heapGetAddressFromBlock heap cb ∨
        heapGetAddressFromBlock heap cb + 4096 ≤ heapGetAddressFromBlock heap b :=
    fun b hb htaken => h.apart hb hcb (ht.ne_of_taken htaken)
  have hinj : ∀ b < heap.table.total, ∀ c < heap.table.total,
      heapGetAddressFromBlock heap b = heapGetAddressFromBlock heap c → b = c :=
    fun b hb c hc => blockAddress_inj (by omega) (by omega)
  -- words of other blocks are those of the tables
  have hkeep : ∀ b < heap.table.total, heapEntryIsFree (a.heap.table.entry b) = false →
      ∀ i < 1024, u32 (putU32 (memset a1.mem (heapGetAddressFromBlock heap cb) 0 4)
        (heapGetAddressFromBlock heap cb) (heapGetAddressFromBlock heap db))
        (heapGetAddressFromBlock heap b + 4 * i)
        = u32 a.mem (heapGetAddressFromBlock heap b + 4 * i) := by
    intro b hb htaken i hi
    have := hne b hb htaken
    rw [u32_putU32_of_apart (by omega), memset_zero, u32_fill_of_apart (by omega), ht.mem]
  constructor
  case chunk_page => exact blockAddress_aligned h.aligned cb
  case directory_page => exact ⟨blockAddress_aligned h.aligned db, blockAddress_lt heap db⟩
  case table_page => exact fun i _ => ⟨blockAddress_aligned h.aligned _, blockAddress_lt heap _⟩
  case table_ne =>
    intro i hi
    obtain ⟨hti, htaken⟩ := h.table_taken i hi
    exact ⟨fun heq => ht.ne_of_taken htaken (hinj _ hti _ hcb heq),
      fun heq => h.table_ne i hi (hinj _ hti _ hdb heq)⟩
  case table_inj =>
    intro i hi j hj heq
    exact h.table_inj i hi j hj (hinj _ (h.table_taken i hi).1 _ (h.table_taken j hj).1 heq)
  case chunk_word => exact u32_putU32 _ _ (blockAddress_lt heap db)
  case directory_word =>
    intro i hi
    have hor : flags.toNat ||| 2 < 2 ^ 12 :=
      Nat.or_lt_two_pow (lt_trans flags.toNat_lt (by decide)) (by decide)
    rw [hkeep db hdb hdtaken i hi, h.directory_word i hi, Nat.or_assoc]
    exact (page_or_and_pageMask (blockAddress_aligned h.aligned _) (blockAddress_lt heap _) hor).2
  case table_word =>
    intro i hi j hj
    obtain ⟨hti, htaken⟩ := h.table_taken i hi
    exact (hkeep _ hti htaken j hj).trans (h.table_word i hi j hj)

end Tables

/-- **`paging_create_chunk` creates the identity map** on every heap with 1026 free blocks. -/
theorem pagingCreateChunk_maps {a : Arena} (flags : UInt8)
    (hal : a.heap.startAddress % 4096 = 0) (hlt : a.heap.table.total < 2 ^ 20)
    (hfree : 1026 ≤ (freeBlocks a.heap).card) :
    ∃ chunk a' directory tables, pagingCreateChunk flags a = .ok chunk a' ∧
      Maps a'.mem chunk directory tables (PageMap.identity flags) := by
  obtain ⟨p, a1, hmalloc⟩ := heapMalloc_small_returns (n := 4 * pagingPageEntries) (a := a)
    (by decide) (by decide) (Finset.card_pos.mp (by omega))
  obtain ⟨db, rfl, hdir⟩ := heapMalloc_small (by decide) (by decide) (by omega) hmalloc
  have hcard := hdir.card_freeBlocks (by omega)
  have hstart : Tables a.heap flags db (fun _ => 0) 0 a1 :=
    { startAddress := hdir.startAddress
      total := hdir.total
      aligned := hal
      total_lt := hlt
      directory_taken := ⟨hdir.inside, by rw [hdir.here (by omega)]; decide⟩
      table_taken := fun i hi => absurd hi (by omega)
      table_ne := fun i hi => absurd hi (by omega)
      table_inj := fun i hi => absurd hi (by omega)
      directory_word := fun i hi => absurd hi (by omega)
      table_word := fun i hi => absurd hi (by omega) }
  obtain ⟨a2, tb, hloop, htab, hone⟩ := hstart.loop 1024 (r := 1) (by omega) (by omega)
  obtain ⟨q, a3, hchunk⟩ := heapMalloc_small_returns (n := 4) (a := a2) (by decide) (by decide)
    (Finset.card_pos.mp (by omega))
  have hT2 : a2.heap.table.total ≤ 2 ^ 30 := by
    rw [htab.total]
    omega
  obtain ⟨cb, rfl, htook⟩ := heapMalloc_small (by decide) (by decide) hT2 hchunk
  have haddr : heapGetAddressFromBlock a2.heap cb = heapGetAddressFromBlock a.heap cb :=
    blockAddress_congr htab.startAddress cb
  have hzalloc := zalloc_of_ok hchunk
  rw [haddr] at hzalloc
  refine ⟨_, ⟨a3.heap, putU32 (memset a3.mem (heapGetAddressFromBlock a.heap cb) 0 4)
    (heapGetAddressFromBlock a.heap cb) (heapGetAddressFromBlock a.heap db)⟩, _, _, ?_,
    htab.maps htook⟩
  unfold pagingCreateChunk
  refine (Prog.bind_of_ok hmalloc _).trans ?_
  refine (Prog.bind_of_ok hloop _).trans ?_
  exact (Prog.bind_of_ok hzalloc _).trans rfl

/-! ## 5. Page tables are a total map -/

/-- **Page tables behave as a total map from pages to entries**, on every reachable heap with
room for them and for every sequence of `paging_set` calls. -/
theorem paging_total_map {s s' : HeapState} {tr : List (HeapState × HeapCall)} (hs : FreshHeap s)
    (h : Run HeapStep s tr s') (hfree : 1026 ≤ (freeBlocks s'.arena.heap).card) (flags : UInt8) :
    ∃ chunk a, pagingCreateChunk flags s'.arena = .ok chunk a ∧
      (∀ calls : List (Nat × Nat), (∀ c ∈ calls, c.1 < 2 ^ 32 ∧ c.2 < 2 ^ 32) →
        ∃ a', pagingSetAll chunk calls a = .ok (calls.map pagingSetCode) a' ∧
          ∀ v < 2 ^ 32, pagingWalk a'.mem (u32 a'.mem chunk) v = lastEntry flags calls v) ∧
      ∀ c : Nat × Nat, c.1 % 4096 ≠ 0 → ∀ a', pagingSetChunk chunk c a'
        = .ok pagingMemoryNotAligned a' := by
  have hI := heapInv_of_run hs h
  obtain ⟨chunk, a, directory, tables, hcreate, hmaps⟩ :=
    pagingCreateChunk_maps flags hI.start_aligned hI.total_lt hfree
  refine ⟨chunk, a, hcreate, fun calls hlt => ?_, fun c hc a' => pagingSetChunk_unaligned chunk hc a'⟩
  obtain ⟨a', hset, hmaps'⟩ := pagingSetAll_maps hmaps hlt
  refine ⟨a', hset, fun v hv => ?_⟩
  rw [hmaps'.chunk_word, hmaps'.walk hv]
  exact foldl_set_eq_lastEntry flags hv calls

/-- On a fresh heap of exactly 1026 blocks, the entry of page 5 is what was set last, unaligned
addresses being refused. -/
theorem paging_total_map_fresh : ∃ chunk a a', pagingCreateChunk 7 (newHeap 1026).arena = .ok chunk a ∧
    pagingSetAll chunk [(0x5000, 0x8003), (0x5001, 0x9003)] a = .ok [ok, pagingMemoryNotAligned] a' ∧
    pagingWalk a'.mem (u32 a'.mem chunk) 0x5fff = 0x8003 ∧
    pagingWalk a'.mem (u32 a'.mem chunk) 0x6fff = 0x6007 := by
  have hzero : heapEntryIsFree 0 = true := by decide
  have hfree : freeBlocks (newHeap 1026).arena.heap = Finset.range 1026 :=
    Finset.filter_true_of_mem fun _ _ => hzero
  obtain ⟨chunk, a, hcreate, hall, -⟩ := paging_total_map (freshHeap_new (by decide) (by decide))
    (Run.refl (newHeap 1026)) (by rw [hfree, Finset.card_range]) 7
  obtain ⟨a', hset, hwalk⟩ := hall [(0x5000, 0x8003), (0x5001, 0x9003)] (by decide)
  exact ⟨chunk, a, a', hcreate, hset, (hwalk 0x5fff (by decide)).trans (by decide),
    (hwalk 0x6fff (by decide)).trans (by decide)⟩

end KokoOs
