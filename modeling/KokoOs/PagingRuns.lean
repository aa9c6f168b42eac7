/-
# The page tables while the kernel runs

The tables that `paging_create_chunk` makes are 1026 allocations of their own (`PageTables`).  Nothing
that is done with files takes one of them or writes to one, so whatever the kernel does besides, in any
order with calls of `paging_set`, the hardware's walk finds what these calls alone have made of the
identity map (`page_map_kept`).

* **Making them.**  The loop over the tables is followed once more, now for whose the blocks are:
  each turn takes a new one (`pagingCreateTables_turn`), and what was allocated before is not
  touched.
* **Keeping them.**  A move of the kernel leaves them as they are (`Paged.kernelStep`), if the
  buffers of its reads and the memory of its clients are elsewhere.  A call of `paging_set` updates
  the map.
* **Runs.**  The map after a run is that of its calls of `paging_set`, one after another (`Paged.run`).

Paging is a matter of memory here: the tables map what they map, and the kernel itself runs on addresses
that are mapped to themselves.
-/
import KokoOs.FileDisk
import KokoOs.HeapZalloc
import KokoOs.PagingMap

namespace KokoOs

open Bytes Prog
open Runs (Run AllSteps)

/-! ## 1. Whose the tables are -/

/-- The tables of a chunk, at blocks `cb`, `db` and `tb`, are among the allocations `K`. -/
structure PageTables (m : Mem) (K : Set Nat) (cb db : Nat) (tb : Nat → Nat) (f : PageMap) : Prop where
  maps : Maps m (blockAt cb) (blockAt db) (fun i => blockAt (tb i)) f
  chunk : cb ∈ K
  directory : db ∈ K
  tables : ∀ i < 1024, tb i ∈ K

section

variable {m m' : Mem} {K : Set Nat} {cb db n : Nat} {tb : Nat → Nat} {f : PageMap} {flags : UInt8}
  {base a a' : Arena}

/-- A word of a block. -/
theorem u32_block {b j : Nat} (hj : j < 1024)
    (h : ∀ i < 4096, m' (blockAt b + i) = m (blockAt b + i)) :
    u32 m' (blockAt b + 4 * j) = u32 m (blockAt b + 4 * j) := by
  refine u32_congr fun x h1 h2 => ?_
  obtain ⟨i, rfl⟩ := Nat.exists_eq_add_of_le (Nat.le_trans (Nat.le_add_right _ _) h1)
  exact h i (by omega)

/-- **The tables stay as long as their blocks keep their bytes.** -/
theorem PageTables.keep (h : PageTables m K cb db tb f)
    (hsame : ∀ b ∈ K, ∀ i < 4096, m' (blockAt b + i) = m (blockAt b + i)) :
    PageTables m' K cb db tb f := by
  obtain ⟨h1, h2, h3, h4, h5, h6, h7, h8⟩ := h.maps
  refine ⟨⟨h1, h2, h3, h4, h5, ?_, fun i hi => ?_, fun i hi j hj => ?_⟩, h.chunk, h.directory,
    h.tables⟩
  · have hword := u32_block (by decide : 0 < 1024) (hsame cb h.chunk)
    rw [Nat.mul_zero, Nat.add_zero] at hword
    exact hword.trans h6
  · rw [u32_block hi (hsame db h.directory)]
    exact h7 i hi
  · rw [u32_block hj (hsame _ (h.tables i hi))]
    exact h8 i hi j hj

/-- A block that is allocated, with what the allocation did to the table as well. -/
theorem KernelHeap.took {a1 : Arena} (hk : KernelHeap a) {p : Nat} (h0 : 0 < n) (hn : n ≤ 4096)
    (h : heapMalloc n a = .ok p a1) : ∃ b, p = blockAt b ∧ Alloc a a1 b ∧ Took a a1 b := by
  have htotal := hk.total
  obtain ⟨b, rfl, halloc⟩ := hk.alloc h0 hn h
  obtain ⟨b', hb', htook⟩ := heapMalloc_small h0 hn (by omega) h
  have hlt : b' < 25600 := htotal ▸ htook.inside
  obtain rfl : b = b' := blockAt_inj (hb'.trans (hk.blockAt_eq hlt))
  exact ⟨b, rfl, halloc, htook⟩

/-- What a turn of the loop over the tables leaves: table `n`, in the new block `b`. -/
structure TableMade (base : Arena) (flags : UInt8) (db n : Nat) (tb : Nat → Nat) (a : Arena) (b : Nat)
    (a' : Arena) : Prop where
  tables : Tables base.heap flags db (fun i => if i = n then b else tb i) (n + 1) a'
  touches : Touches {db} ∅ a a'
  directory : Held a' db
  held : Held a' b
  fresh : ¬ Held a b
  ne : db ≠ b
  card : (freeBlocks a'.heap).card + 1 = (freeBlocks a.heap).card

/-- **One turn of the loop over the tables.** -/
theorem pagingCreateTables_turn (hbase : KernelHeap base) {fuel : Nat}
    (htab : Tables base.heap flags db tb n a) (hk : KernelHeap a) (hdb : Held a db) (hn : n < 1024)
    (h : pagingCreateTables (blockAt db) flags.toNat (fuel + 1) n (n * 4194304 % 2 ^ 32) a = .ok () a') :
    ∃ b a1, TableMade base flags db n tb a b a1 ∧
      pagingCreateTables (blockAt db) flags.toNat fuel (n + 1) ((n + 1) * 4194304 % 2 ^ 32) a1 =
        .ok () a' := by
  obtain ⟨entry, a1, hmalloc, h⟩ := (bind_ok_iff _ _ _ _ _).mp h
  obtain ⟨b, rfl, halloc, htook⟩ := hk.took (by decide) (by decide) hmalloc
  have hlt := halloc.held.lt
  have hdblt := hdb.lt
  have hne : db ≠ b := halloc.toNew.ne hdb
  have hturn := htab.turn hn htook
  rw [hbase.blockAt_eq hlt, hbase.blockAt_eq hdblt] at hturn
  -- the memory that the turn leaves
  obtain ⟨u, a2, hmodify, h⟩ := (bind_ok_iff _ _ _ _ _).mp h
  have hdir : wordAddress (blockAt db) n = blockAt db + 4 * n := by
    have hlast := blockAt_lt hdblt
    unfold wordAddress
    omega
  obtain rfl : a2 = ⟨a1.heap, putU32 (pagingFillTable (blockAt b) (n * 4194304) flags.toNat 1024 0
      a1.mem) (blockAt db + 4 * n) (blockAt b ||| flags.toNat ||| 2)⟩ := by
    have hoff : n * 4194304 < 2 ^ 32 := by omega
    rw [← hdir]
    rw [Nat.mod_eq_of_lt hoff] at hmodify
    exact (EStateM.Result.ok.inj hmodify).2.symm
  have hpage : blockAt b % 4096 = 0 := by
    unfold blockAt
    simp only [memoryHeapStartAddress]
    omega
  have hlast := blockAt_lt hlt
  obtain ⟨-, hfill⟩ := pagingFillTable_spec (n * 4194304) hpage (by omega) flags.toNat_lt 1024 0
    a1.mem (by omega)
  generalize pagingFillTable (blockAt b) (n * 4194304) flags.toNat 1024 0 a1.mem = filled at *
  have hnew : New a ⟨a1.heap, filled⟩ b := halloc.toNew.store fun x hx => hfill x (by omega)
  have hdb1 : Held a1 db := halloc.touches.held db (Set.notMem_empty db) hdb
  have hstore : Touches {db} ∅ a ⟨a1.heap,
      putU32 filled (blockAt db + 4 * n) (blockAt b ||| flags.toNat ||| 2)⟩ :=
    (hnew.touches.mono (Set.empty_subset _) (Set.Subset.refl _)).trans
      (Touches.store hnew.touches.kernel db
        (fun x hx => putU32_of_not_mem (by omega)) hdblt)
  have hoff : (n * 4194304 % 2 ^ 32 + pagingPageEntries * pagingPageSize) % 2 ^ 32 =
      (n + 1) * 4194304 % 2 ^ 32 := by
    simp only [pagingPageEntries, pagingPageSize]
    omega
  rw [hoff] at h
  exact ⟨b, _, ⟨hturn, hstore, ⟨hdb1.lt, hdb1.word⟩, ⟨hnew.held.lt, hnew.held.word⟩, hnew.fresh, hne,
    halloc.card⟩, h⟩

/-- **The loop over the tables takes a new block for each**, and writes to these and to the directory
only. -/
theorem pagingCreateTables_owned (hbase : KernelHeap base) : ∀ {fuel n : Nat} {tb : Nat → Nat}
    {a a' : Arena}, Tables base.heap flags db tb n a → KernelHeap a → Held a db → n + fuel ≤ 1024 →
    pagingCreateTables (blockAt db) flags.toNat fuel n (n * 4194304 % 2 ^ 32) a = .ok () a' →
    ∃ tb', Tables base.heap flags db tb' (n + fuel) a' ∧ Touches {db} ∅ a a' ∧ Held a' db ∧
      (∀ i < n, tb' i = tb i) ∧
      (∀ i, n ≤ i → i < n + fuel → Held a' (tb' i) ∧ ¬ Held a (tb' i)) ∧
      (freeBlocks a'.heap).card + fuel = (freeBlocks a.heap).card
  | 0, n, tb, a, a', htab, hk, hdb, _, h => by
    obtain ⟨-, rfl⟩ := (pure_ok_iff _ _ _ _).mp h
    exact ⟨tb, htab, Touches.refl hk _ _, hdb, fun _ _ => rfl, fun i h1 h2 => absurd h2 (by omega),
      rfl⟩
  | fuel + 1, n, tb, a, a', htab, hk, hdb, hn, h => by
    obtain ⟨b, a1, hmade, h⟩ := pagingCreateTables_turn hbase htab hk hdb (by omega) h
    obtain ⟨tb', htab', ht, hdb', hold, hfresh, hcard⟩ := pagingCreateTables_owned hbase hmade.tables
      hmade.touches.kernel hmade.directory (by omega) h
    have hcount : (freeBlocks a'.heap).card + (fuel + 1) = (freeBlocks a.heap).card := by
      have hone := hmade.card
      omega
    have hmine : tb' n = b := (hold n (by omega)).trans (if_pos rfl)
    rw [Nat.add_right_comm, Nat.add_assoc] at htab'
    refine ⟨tb', htab', hmade.touches.trans ht, hdb', fun i hi => (hold i (by omega)).trans
      (if_neg (by omega)), fun i h1 h2 => ?_, hcount⟩
    by_cases hin : i = n
    · rw [hin, hmine]
      exact ⟨ht.held b (fun hc => hmade.ne (Set.mem_singleton_iff.mp hc).symm) hmade.held, hmade.fresh⟩
    · obtain ⟨hheld, hnot⟩ := hfresh i (by omega) (by omega)
      refine ⟨hheld, fun hc => hnot ?_⟩
      by_cases hdbi : tb' i = db
      · rw [hdbi]
        exact hmade.directory
      · exact hmade.touches.held _ (fun hin => hdbi (Set.mem_singleton_iff.mp hin)) hc

/-- Before the loop: the directory is there, and no table. -/
theorem Tables.start (hk : KernelHeap base) (ht : Took base a db) :
    Tables base.heap flags db (fun _ => 0) 0 a where
  startAddress := ht.startAddress
  total := ht.total
  aligned := hk.inv.start_aligned
  total_lt := hk.inv.total_lt
  directory_taken := by
    have htotal := hk.total
    have hin := ht.inside
    refine ⟨hin, ?_⟩
    rw [ht.here (by omega)]
    decide
  table_taken i hi := absurd hi (Nat.not_lt_zero i)
  table_ne i hi := absurd hi (Nat.not_lt_zero i)
  table_inj i hi := absurd hi (Nat.not_lt_zero i)
  directory_word i hi := absurd hi (Nat.not_lt_zero i)
  table_word i hi := absurd hi (Nat.not_lt_zero i)

/-- Tables at the same addresses. -/
theorem Maps.retable {chunk directory : Nat} {tables tables' : Nat → Nat}
    (h : Maps m chunk directory tables f) (heq : ∀ i < 1024, tables i = tables' i) :
    Maps m chunk directory tables' f where
  chunk_page := h.chunk_page
  directory_page := h.directory_page
  table_page i hi := heq i hi ▸ h.table_page i hi
  table_ne i hi := heq i hi ▸ h.table_ne i hi
  table_inj i hi j hj hij := h.table_inj i hi j hj (by rw [heq i hi, heq j hj, hij])
  chunk_word := h.chunk_word
  directory_word i hi := heq i hi ▸ h.directory_word i hi
  table_word i hi := heq i hi ▸ h.table_word i hi

/-- What `paging_create_chunk` has made of the kernel's heap: the tables of the identity map, in
allocations of their own. -/
structure ChunkMade (base : Arena) (flags : UInt8) (a : Arena) (K : Set Nat) (cb db : Nat)
    (tb : Nat → Nat) : Prop where
  tables : PageTables a.mem K cb db tb (PageMap.identity flags)
  touches : Touches ∅ ∅ base a
  new : ∀ b ∈ K, Held a b ∧ ¬ Held base b
  card : (freeBlocks a.heap).card + 1026 = (freeBlocks base.heap).card

/-- **`paging_create_chunk` makes tables of its own.** -/
theorem pagingCreateChunk_owned (hk : KernelHeap base) {chunk : Nat}
    (h : pagingCreateChunk flags base = .ok chunk a) :
    ∃ K cb db tb, chunk = blockAt cb ∧ ChunkMade base flags a K cb db tb := by
  unfold pagingCreateChunk at h
  obtain ⟨directory, a1, hmalloc, h⟩ := (bind_ok_iff _ _ _ _ _).mp h
  obtain ⟨db, rfl, halloc, htook⟩ := hk.took (by decide) (by decide) hmalloc
  obtain ⟨u, a2, hloop, h⟩ := (bind_ok_iff _ _ _ _ _).mp h
  obtain ⟨tb, htab, ht, hdb2, -, hfresh, hcard⟩ := pagingCreateTables_owned hk (Tables.start hk htook)
    halloc.touches.kernel halloc.held (by decide) hloop
  -- the chunk itself
  obtain ⟨p, a3, hzalloc, h⟩ := (bind_ok_iff _ _ _ _ _).mp h
  obtain ⟨v, a4, hstore, hret⟩ := (bind_ok_iff _ _ _ _ _).mp h
  obtain ⟨rfl, rfl⟩ := (pure_ok_iff _ _ _ _).mp hret
  obtain rfl := (EStateM.Result.ok.inj hstore).2
  obtain ⟨a5, hchunk, rfl⟩ := zalloc_ok_iff.mp hzalloc
  obtain ⟨cb, rfl, hcalloc, hctook⟩ := ht.kernel.took (by decide) (by decide) hchunk
  have hmaps := htab.maps hctook
  rw [hk.blockAt_eq hcalloc.held.lt, hk.blockAt_eq hdb2.lt, memset_zero] at hmaps
  have hheld : ∀ i < 1024, Held a2 (tb i) ∧ ¬ Held a1 (tb i) :=
    fun i hi => hfresh i (Nat.zero_le _) (by simpa [pagingPageEntries] using hi)
  have hmaps := hmaps.retable fun i hi => hk.blockAt_eq (hheld i hi).1.lt
  -- what the chunk's own word leaves alone
  have hnew : New a2 ⟨a5.heap, putU32 (fill a5.mem (blockAt cb) 4 0) (blockAt cb) (blockAt db)⟩ cb :=
    hcalloc.toNew.store fun x hx => by
      rw [putU32_of_not_mem (by omega), fill_of_not_mem (by omega)]
  have hcount : (freeBlocks a5.heap).card + 1026 = (freeBlocks base.heap).card := by
    have hfirst := halloc.card
    have hlast := hcalloc.card
    change _ + 1024 = _ at hcard
    omega
  have hbefore : Touches ∅ ∅ base a2 :=
    halloc.touches.trans' ht fun _ hb => Set.mem_singleton_iff.mp hb ▸ halloc.fresh
  refine ⟨{b | b = cb ∨ b = db ∨ ∃ i < 1024, b = tb i}, cb, db, tb, rfl,
    ⟨hmaps, .inl rfl, .inr (.inl rfl), fun i hi => .inr (.inr ⟨i, hi, rfl⟩)⟩,
    hbefore.trans hnew.touches, ?_, hcount⟩
  have hkeep := fun b (hb : Held a2 b) => hnew.touches.held b (Set.notMem_empty b) hb
  rintro b (rfl | rfl | ⟨i, hi, rfl⟩)
  · exact ⟨hnew.held, fun hb => hnew.fresh (hbefore.held _ (Set.notMem_empty _) hb)⟩
  · exact ⟨hkeep _ hdb2, halloc.fresh⟩
  · exact ⟨hkeep (tb i) (hheld i hi).1,
      fun hb => (hheld i hi).2 (halloc.touches.held _ (Set.notMem_empty _) hb)⟩

/-- **`paging_create_chunk` returns** on every heap with 1026 free blocks. -/
theorem pagingCreateChunk_runs {stop : Halt → Prop} (hk : KernelHeap base) (flags : UInt8)
    (hs : (freeBlocks base.heap).card < 1026 → ∀ e, stop e) :
    Prog.Runs stop (pagingCreateChunk flags) base fun chunk a => ∃ K cb db tb, chunk = blockAt cb ∧
      ChunkMade base flags a K cb db tb := by
  refine Prog.runs_iff.mpr ⟨fun p a h => pagingCreateChunk_owned hk h, fun e a h => hs ?_ e⟩
  by_contra hfew
  obtain ⟨chunk, a', -, -, hok, -⟩ :=
    pagingCreateChunk_maps flags hk.inv.start_aligned hk.inv.total_lt (Nat.not_lt.mp hfew)
  rw [hok] at h
  cases h

end

/-! ## 2. Runs -/

/-- A move of the kernel, or a call `paging_set(chunk, v, e)`. -/
inductive PagedMove where
  | kernel (move : KernelMove)
  | set (call : Nat × Nat)

/-- The call of `paging_set` that a move is. -/
def PagedMove.setCall : PagedMove → Option (Nat × Nat)
  | .kernel _ => none
  | .set call => some call

/-- What a move makes of the map. -/
def PageMap.after (g : PageMap) (m : PagedMove) : PageMap :=
  match m.setCall with
  | some call => g.set call
  | none => g

/-- A move that is made beside the tables in `K`: nothing but `paging_set` is given them to rewrite. -/
inductive PagedStep (K : Set Nat) (chunk : Nat) (f : FileState FatFileDescriptor) :
    PagedMove → FileState FatFileDescriptor → Prop
  | kernel {move : KernelMove} {f' : FileState FatFileDescriptor} :
      move.Spares K → KernelStep f move f' → PagedStep K chunk f (.kernel move) f'
  | set {call : Nat × Nat} {code : Int} {a : Arena} : call.1 < 2 ^ 32 → call.2 < 2 ^ 32 →
      pagingSetChunk chunk call f.sys.arena = .ok code a →
      PagedStep K chunk f (.set call) { f with sys := { f.sys with arena := a } }

/-- The invariant: the tables are there, hold the map and belong to no open file. -/
structure Paged (K : Set Nat) (cb db : Nat) (tb : Nat → Nat) (p : FatPrivate)
    (f : FileState FatFileDescriptor) (g : PageMap) : Prop where
  working : Working f p
  tables : PageTables f.sys.arena.mem K cb db tb g
  held : ∀ b ∈ K, Held f.sys.arena b
  apart : ∀ b ∈ K, b ∉ openObjects f

section

variable {K : Set Nat} {cb db : Nat} {tb : Nat → Nat} {p : FatPrivate} {g : PageMap} {flags : UInt8}
  {f f' f0 : FileState FatFileDescriptor} {move : PagedMove} {a : Arena}

/-- The moves of a run leave what its calls of `paging_set` leave. -/
theorem foldl_after (tr : List (FileState FatFileDescriptor × PagedMove)) : ∀ g : PageMap,
    (tr.map Prod.snd).foldl PageMap.after g = (tr.filterMap fun q => q.2.setCall).foldl PageMap.set g := by
  induction tr with
  | nil => exact fun _ => rfl
  | cons q tr ih =>
    intro g
    cases hcall : q.2.setCall with
    | none => simp [PageMap.after, hcall, ih]
    | some call => simp [PageMap.after, hcall, ih]

/-- A call of `paging_set` is a client of the kernel's memory. -/
theorem Paged.kernelStep (h : Paged K cb db tb p f g)
    (hstep : PagedStep K (blockAt cb) f move f') : ∃ m, KernelStep f m f' := by
  cases hstep with
  | kernel hspare hmove => exact ⟨_, hmove⟩
  | @set call code a hv he hset =>
    by_cases hal : call.1 % 4096 = 0
    · rw [pagingSetChunk_aligned h.tables.maps hv hal] at hset
      obtain ⟨-, rfl⟩ := EStateM.Result.ok.inj hset
      have htable : tb (call.1 / 4194304) ∈ K := h.tables.tables _ (by omega)
      -- the word is one of a table
      have ht := Touches.store h.working.table.kernel (tb (call.1 / 4194304)) (m := putU32
        f.sys.arena.mem (blockAt (tb (call.1 / 4194304)) + 4 * (call.1 / 4096 % 1024)) call.2)
        (fun x hx => putU32_of_not_mem (by omega)) (h.held _ htable).lt
      exact ⟨_, .client (ht.mono (Set.Subset.refl _) (Set.empty_subset _)) fun x hx =>
        Set.mem_singleton_iff.mp hx ▸ h.apart _ htable⟩
    · rw [pagingSetChunk_unaligned _ hal] at hset
      obtain ⟨-, rfl⟩ := EStateM.Result.ok.inj hset
      exact ⟨_, .client (Touches.refl h.working.table.kernel ∅ _) fun x hx =>
        absurd hx (Set.notMem_empty x)⟩

/-- **One move.** -/
theorem Paged.step (h : Paged K cb db tb p f g) (hp : Readable p)
    (hstep : PagedStep K (blockAt cb) f move f') : Paged K cb db tb p f' (PageMap.after g move) := by
  obtain ⟨m, hmove⟩ := h.kernelStep hstep
  have hworking := (hmove.keeps hp h.working).working
  cases hstep with
  | kernel hspare hmove =>
    have hstart : Undisturbed K f f := ⟨h.held, fun _ _ _ _ => rfl, h.apart⟩
    have hkept := hstart.step hp h.working hspare hmove
    exact ⟨hworking, h.tables.keep hkept.bytes, hkept.held, hkept.apart⟩
  | @set call code a hv he hset =>
    by_cases hal : call.1 % 4096 = 0
    · rw [pagingSetChunk_aligned h.tables.maps hv hal] at hset
      obtain ⟨-, rfl⟩ := EStateM.Result.ok.inj hset
      exact ⟨hworking, ⟨h.tables.maps.set hv he hal, h.tables.chunk, h.tables.directory,
        h.tables.tables⟩, fun b hb => ⟨(h.held b hb).lt, (h.held b hb).word⟩, h.apart⟩
    · rw [pagingSetChunk_unaligned _ hal] at hset
      obtain ⟨-, rfl⟩ := EStateM.Result.ok.inj hset
      have hsame : PageMap.after g (.set call) = g := if_neg hal
      rw [hsame]
      exact h

/-- Right after `paging_create_chunk`. -/
theorem Paged.start (hw : Working f0 p) (hp : Readable p)
    (hmade : ChunkMade f0.sys.arena flags a K cb db tb) :
    KernelStep f0 (.client ∅) { f0 with sys := { f0.sys with arena := a } } ∧
      Paged K cb db tb p { f0 with sys := { f0.sys with arena := a } } (PageMap.identity flags) := by
  have hclient := KernelStep.client (hmade.touches.mono (Set.Subset.refl _) (Set.empty_subset _))
    (fun x hx => absurd hx (Set.notMem_empty x))
  refine ⟨hclient, (hclient.keeps hp hw).working, hmade.tables, fun b hb => (hmade.new b hb).1, ?_⟩
  rintro b hb ⟨i, desc, hi, hx⟩
  exact (hmade.new b hb).2 (hw.table.held hi hx)

/-- What the hardware finds. -/
theorem Paged.walk {calls : List (Nat × Nat)}
    (h : Paged K cb db tb p f (calls.foldl PageMap.set (PageMap.identity flags))) {v : Nat}
    (hv : v < 2 ^ 32) : pagingWalk f.sys.arena.mem (u32 f.sys.arena.mem (blockAt cb)) v =
      lastEntry flags calls v := by
  rw [h.tables.maps.chunk_word, h.tables.maps.walk hv]
  exact foldl_set_eq_lastEntry flags hv calls

/-- **A run** leaves the map that its calls of `paging_set` leave. -/
theorem Paged.run (h : Paged K cb db tb p f g) (hp : Readable p)
    {tr : List (FileState FatFileDescriptor × PagedMove)}
    (hrun : Run (PagedStep K (blockAt cb)) f tr f') :
    Paged K cb db tb p f' ((tr.filterMap fun q => q.2.setCall).foldl PageMap.set g) := by
  rw [← foldl_after]
  exact hrun.folds PageMap.after (C := fun _ _ => True) (fun _ _ _ _ hI _ hstep => hI.step hp hstep) h
    fun _ _ => trivial

end

end KokoOs
