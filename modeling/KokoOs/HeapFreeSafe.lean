/-
# Which addresses `heap_free` accepts, and which words it touches

`heap_free` is meant to release the allocation that starts at exactly the address it is given, to
panic on every other address, and to touch no word behind the table.  It judges an address by the
quotient of a truncating division and by one flag, and its loop looks at the word behind the one it
has cleared.

* **The accesses.**  The words it touches are those of a second version that logs them
  (`heapFreeLogged`, `heapFreeLogged_erases`).  An address that is refused costs one of them at
  most, and one that is accepted a word more than it clears (`heapFreeAccesses_single`).
* **The addresses.**  `freesOnlyLive_iff` says which of them are treated as they should, in every
  state a history reaches: those below the heap where no allocation starts, and those whose block is
  in the table and either is not marked as a first one, or is the only block of the allocation that
  starts there and has another block behind it.

An address inside an allocation is accepted for that of the allocation (`interior_address_freed`).
-/
import KokoOs.HeapFree
import KokoOs.Lib.Logged

namespace KokoOs

open Bytes Runs Prog

/-! ## 1. The words that are touched -/

/-- An access to a word of the table. -/
inductive TableAccess where
  | read (index : Nat)
  | write (index : Nat)

def TableAccess.index : TableAccess → Nat
  | .read i => i
  | .write i => i

/-- Programs of the heap that log what they do to the table. -/
abbrev LoggedHeapM := EStateM Halt (Arena × List TableAccess)

/-- The loop of `heap_free`, with its accesses. -/
def heapFreeLoopLogged (startBlock : Nat) : Nat → Nat → LoggedHeapM Unit
  | 0, _ => pure ()
  | fuel + 1, currentBlock => do
    record (.write currentBlock)
    unlogged (modify (heapFreeTurn startBlock currentBlock))
    record (.read (currentBlock + 1))
    let s ← get
    if heapEntryHasNext (s.1.heap.table.entry (currentBlock + 1)) then
      heapFreeLoopLogged startBlock fuel (currentBlock + 1)
    else pure ()

/-- `heap_free`, with its accesses. -/
def heapFreeLogged (address : Nat) : LoggedHeapM Unit := do
  let s ← get
  if s.1.heap.startAddress > address then
    throw (.panic "Invalid address is going to be freed!")
  else
    let startBlock := heapFreeStartBlock s.1.heap address
    record (.read startBlock)
    if !heapEntryIsFirst (s.1.heap.table.entry startBlock) then
      throw (.panic "Address is not the beginning of an address block!")
    else
      heapFreeLoopLogged startBlock (2 ^ 30) startBlock

/-- The words a call of `heap_free` touches. -/
def heapFreeAccesses (a : Arena) (address : Nat) : List TableAccess := logOf (heapFreeLogged address) a

/-- One turn of the logged loop. -/
theorem heapFreeLoopLogged_succ (b fuel w : Nat) (a : Arena) (log : List TableAccess) :
    heapFreeLoopLogged b (fuel + 1) w (a, log) =
      if heapEntryHasNext ((heapFreeTurn b w a).heap.table.entry (w + 1)) then
        heapFreeLoopLogged b fuel (w + 1) (heapFreeTurn b w a, log ++ [.write w] ++ [.read (w + 1)])
      else .ok () (heapFreeTurn b w a, log ++ [.write w] ++ [.read (w + 1)]) := by
  have hrun : heapFreeLoopLogged b (fuel + 1) w (a, log) =
      (if heapEntryHasNext ((heapFreeTurn b w a).heap.table.entry (w + 1)) then
        heapFreeLoopLogged b fuel (w + 1)
      else pure ()) (heapFreeTurn b w a, log ++ [.write w] ++ [.read (w + 1)]) := rfl
  rw [hrun]
  split
  · rfl
  · rfl

theorem heapFreeLoopLogged_erases (b : Nat) : ∀ (fuel w : Nat) (a : Arena) (log : List TableAccess),
    dropLog (heapFreeLoopLogged b fuel w (a, log)) = .ok () (heapFreeLoop b fuel w a)
  | 0, _, _, _ => rfl
  | fuel + 1, w, a, log => by
    have hone : heapFreeLoop b (fuel + 1) w a =
        if heapEntryHasNext ((heapFreeTurn b w a).heap.table.entry (w + 1)) then
          heapFreeLoop b fuel (w + 1) (heapFreeTurn b w a)
        else heapFreeTurn b w a := rfl
    rw [hone, heapFreeLoopLogged_succ]
    split
    · exact heapFreeLoopLogged_erases b fuel (w + 1) _ _
    · rfl

/-- The three ways `heap_free` may go, with the words it has touched. -/
theorem heapFreeLogged_run (address : Nat) (a : Arena) (log : List TableAccess) :
    heapFreeLogged address (a, log) =
      if a.heap.startAddress > address then
        .error (.panic "Invalid address is going to be freed!") (a, log)
      else if heapEntryIsFirst (a.heap.table.entry (heapFreeStartBlock a.heap address)) = false then
        .error (.panic "Address is not the beginning of an address block!")
          (a, log ++ [.read (heapFreeStartBlock a.heap address)])
      else heapFreeLoopLogged (heapFreeStartBlock a.heap address) (2 ^ 30)
        (heapFreeStartBlock a.heap address) (a, log ++ [.read (heapFreeStartBlock a.heap address)]) := by
  unfold heapFreeLogged
  rw [get_bind]
  dsimp only
  split
  · rfl
  · cases hfirst : heapEntryIsFirst (a.heap.table.entry (heapFreeStartBlock a.heap address)) with
    | true => rfl
    | false => rfl

/-- The three ways `heap_free` itself may go. -/
theorem heapFree_run (address : Nat) (a : Arena) : heapFree address a =
    if a.heap.startAddress > address then
      .error (.panic "Invalid address is going to be freed!") a
    else if heapEntryIsFirst (a.heap.table.entry (heapFreeStartBlock a.heap address)) = false then
      .error (.panic "Address is not the beginning of an address block!") a
    else .ok () (heapFreeLoop (heapFreeStartBlock a.heap address) (2 ^ 30)
      (heapFreeStartBlock a.heap address) a) := by
  unfold heapFree
  rw [get_bind]
  dsimp only
  split
  · rfl
  · cases heapEntryIsFirst (a.heap.table.entry (heapFreeStartBlock a.heap address)) with
    | true => rfl
    | false => rfl

/-- **The logged version is `heap_free`.** -/
theorem heapFreeLogged_erases (address : Nat) : Erases (heapFreeLogged address) (heapFree address) := by
  intro a log
  rw [heapFreeLogged_run, heapFree_run]
  split
  · rfl
  · split
    · rfl
    · exact heapFreeLoopLogged_erases _ _ _ _ _

/-- The loop only adds accesses. -/
theorem heapFreeLoopLogged_appends (b fuel w : Nat) : Appends (heapFreeLoopLogged b fuel w) := by
  induction fuel generalizing w with
  | zero => exact Appends.pure _
  | succ fuel ih =>
    refine Appends.bind (Appends.record _) fun _ => Appends.bind (Appends.unlogged _) fun _ => ?_
    exact Appends.bind (Appends.record _) fun _ => Appends.get_bind fun s =>
      Appends.ite (ih (w + 1)) (Appends.pure _)

section

variable {a : Arena} {address : Nat}

/-- An address below the heap is refused at once. -/
theorem heapFreeAccesses_below (h : address < a.heap.startAddress) : heapFreeAccesses a address = [] := by
  unfold heapFreeAccesses logOf
  rw [heapFreeLogged_run, if_pos h]
  rfl

/-- An address that is not below the heap is judged by the word of its block, and may be refused for it. -/
theorem heapFreeAccesses_refused (h : a.heap.startAddress ≤ address)
    (hf : heapEntryIsFirst (a.heap.table.entry (heapFreeStartBlock a.heap address)) = false) :
    heapFreeAccesses a address = [.read (heapFreeStartBlock a.heap address)] := by
  unfold heapFreeAccesses logOf
  rw [heapFreeLogged_run, if_neg (by omega), if_pos hf]
  rfl

/-- If that is a first one, it is cleared and the next one is looked at. -/
theorem heapFreeAccesses_accepted (h : a.heap.startAddress ≤ address)
    (hf : heapEntryIsFirst (a.heap.table.entry (heapFreeStartBlock a.heap address)) = true) :
    [.read (heapFreeStartBlock a.heap address), .write (heapFreeStartBlock a.heap address),
      .read (heapFreeStartBlock a.heap address + 1)] <+: heapFreeAccesses a address := by
  have hfuel : (2 : Nat) ^ 30 = 1073741823 + 1 := by norm_num
  unfold heapFreeAccesses logOf
  rw [heapFreeLogged_run, if_neg (by omega), if_neg (by simp [hf]), hfuel, heapFreeLoopLogged_succ]
  split
  · exact heapFreeLoopLogged_appends _ _ _ _ _
  · exact List.prefix_rfl

/-- The next one is the last if it does not carry `HEAP_HAS_NEXT`. -/
theorem heapFreeAccesses_single (h : a.heap.startAddress ≤ address)
    (hf : heapEntryIsFirst (a.heap.table.entry (heapFreeStartBlock a.heap address)) = true)
    (hnext : heapEntryHasNext (a.heap.table.entry (heapFreeStartBlock a.heap address + 1)) = false) :
    heapFreeAccesses a address = [.read (heapFreeStartBlock a.heap address),
      .write (heapFreeStartBlock a.heap address), .read (heapFreeStartBlock a.heap address + 1)] := by
  have hturn := (cleared_turn (heapFreeStartBlock a.heap address) (heapFreeStartBlock a.heap address)
    a).entry (heapFreeStartBlock a.heap address + 1)
  rw [if_neg (by omega)] at hturn
  have hfuel : (2 : Nat) ^ 30 = 1073741823 + 1 := by norm_num
  unfold heapFreeAccesses logOf
  rw [heapFreeLogged_run, if_neg (by omega), if_neg (by simp [hf]), hfuel, heapFreeLoopLogged_succ,
    hturn, if_neg (by simp [hnext])]
  rfl

end

/-! ## 2. What an address should do -/

/-- `heap_free(address)` is right: it releases the live allocation that starts there exactly, or, when
there is none, panics and leaves the heap as it is; and it touches words of the table only. -/
structure FreesOnlyLive (s : HeapState) (address : Nat) : Prop where
  releases : ∀ al ∈ s.live, al.address = address → FreesExactly s.arena al
  refuses : (∀ al ∈ s.live, al.address ≠ address) →
    ∃ message, heapFree address s.arena = .error (.panic message) s.arena
  inside : ∀ access ∈ heapFreeAccesses s.arena address, access.index < s.arena.heap.table.total

/-- The addresses for which it is: those below the heap where no allocation starts, and those whose
block is in the table and either is not marked as a first one, or is the only block of the live
allocation that starts there and has another block of the table behind it. -/
def FreeSafe (s : HeapState) (address : Nat) : Prop :=
  (address < s.arena.heap.startAddress ∧ ∀ al ∈ s.live, al.address ≠ address) ∨
    (s.arena.heap.startAddress ≤ address ∧
      heapFreeStartBlock s.arena.heap address < s.arena.heap.table.total ∧
      (heapEntryIsFirst (s.arena.heap.table.entry (heapFreeStartBlock s.arena.heap address)) = false ∨
        ∃ al ∈ s.live, al.address = address ∧ al.blocks = 1 ∧
          heapFreeStartBlock s.arena.heap address + 1 < s.arena.heap.table.total))

/-! ## 3. When it is -/

section

variable {s : HeapState} {address : Nat} {al : Allocation}

/-- Only one live allocation starts at an address. -/
theorem HeapInv.live_unique (hI : HeapInv s) (hal : al ∈ s.live) {al' : Allocation} (hal' : al' ∈ s.live)
    (haddr : al.address = al'.address) : al = al' := by
  by_contra hne
  have hdisj := (hI.apart_erase hal).1 al' ((List.mem_erase_of_ne (Ne.symm hne)).mpr hal')
  have hblock : al.block s.arena.heap = al'.block s.arena.heap := by
    unfold Allocation.block
    rw [haddr]
  have h1 := (hI.shows al hal).pos
  have h2 := (hI.shows al' hal').pos
  exact Finset.disjoint_left.mp hdisj (Finset.mem_Ico.mpr ⟨Nat.le_refl _, by omega⟩)
    (Finset.mem_Ico.mpr ⟨by omega, by omega⟩)

/-- A live allocation that is not below the heap and whose computed block is in the table is where
it was computed to be. -/
theorem HeapInv.reached (hI : HeapInv s) (hal : al ∈ s.live) (hle : s.arena.heap.startAddress ≤ al.address)
    (hlt : heapFreeStartBlock s.arena.heap al.address < s.arena.heap.table.total) :
    al.Reached s.arena.heap := by
  have hsh := hI.shows al hal
  have hb := hsh.block_lt hI
  have hT := hI.total_lt
  have hstart := hI.start_lt
  have hnowrap : s.arena.heap.startAddress + 4096 * al.block s.arena.heap < 2 ^ 32 := by
    have haddr : al.address = (s.arena.heap.startAddress + al.block s.arena.heap * 4096) % 2 ^ 32 :=
      hsh.placed
    omega
  refine ⟨hnowrap, ?_⟩
  by_contra hfar
  have hidx := freeStartBlock_of_far hsh.placed hnowrap hb (by omega)
  omega

/-- The word of a live allocation that is reached is a first one. -/
theorem HeapInv.first_of_reached (hI : HeapInv s) (hal : al ∈ s.live) (hr : al.Reached s.arena.heap) :
    heapEntryIsFirst (s.arena.heap.table.entry (heapFreeStartBlock s.arena.heap al.address)) = true := by
  have hsh := hI.shows al hal
  rw [freeStartBlock_of_reached hsh.placed hr, hsh.first]
  decide

/-- An address whose word is a first one is not refused. -/
theorem heapFree_ne_error {a a' : Arena} {e : Halt} (hle : a.heap.startAddress ≤ address)
    (hf : heapEntryIsFirst (a.heap.table.entry (heapFreeStartBlock a.heap address)) = true) :
    heapFree address a ≠ .error e a' := by
  intro herr
  obtain ⟨a'', hok⟩ := heapFree_returns hle hf
  rw [hok] at herr
  cases herr

/-- What the address has to be for the call to be right. -/
theorem FreeSafe.of_freesOnlyLive (hI : HeapInv s) (h : FreesOnlyLive s address) : FreeSafe s address := by
  rcases Nat.lt_or_ge address s.arena.heap.startAddress with hlt | hle
  · refine Or.inl ⟨hlt, fun al hal haddr => ?_⟩
    obtain ⟨a', hfree, -⟩ := h.releases al hal haddr
    rw [haddr, heapFree_run, if_pos hlt] at hfree
    cases hfree
  · cases hf : heapEntryIsFirst (s.arena.heap.table.entry (heapFreeStartBlock s.arena.heap address)) with
    | false =>
      have haccess := heapFreeAccesses_refused hle hf
      refine Or.inr ⟨hle, ?_, Or.inl hf⟩
      exact h.inside (.read (heapFreeStartBlock s.arena.heap address)) (by rw [haccess]; simp)
    | true =>
      have haccess := (heapFreeAccesses_accepted hle hf).subset
      have hin : heapFreeStartBlock s.arena.heap address < s.arena.heap.table.total :=
        h.inside (.read (heapFreeStartBlock s.arena.heap address)) (haccess (by simp))
      have hnext : heapFreeStartBlock s.arena.heap address + 1 < s.arena.heap.table.total :=
        h.inside (.read (heapFreeStartBlock s.arena.heap address + 1)) (haccess (by simp))
      obtain ⟨al, hal, haddr⟩ : ∃ al ∈ s.live, al.address = address := by
        by_contra hno
        obtain ⟨message, herr⟩ := h.refuses fun al hal haddr => hno ⟨al, hal, haddr⟩
        exact heapFree_ne_error hle hf herr
      have hone := ((freesExactly_iff hI hal).mp (h.releases al hal haddr)).1
      exact Or.inr ⟨hle, hin, Or.inr ⟨al, hal, haddr, hone, hnext⟩⟩

/-- If the address is one of these, the call is right. -/
theorem FreesOnlyLive.of_freeSafe (hI : HeapInv s) (h : FreeSafe s address) : FreesOnlyLive s address := by
  rcases h with ⟨hlt, hnone⟩ | ⟨hle, hin, hf | ⟨al, hal, rfl, hone, hnext⟩⟩
  · refine ⟨fun al hal haddr => absurd haddr (hnone al hal), fun _ => ?_, ?_⟩
    · rw [heapFree_run, if_pos hlt]
      exact ⟨_, rfl⟩
    · rw [heapFreeAccesses_below hlt]
      exact fun access haccess => absurd haccess (by simp)
  · refine ⟨fun al hal haddr => ?_, fun _ => ?_, ?_⟩
    · subst haddr
      rw [hI.first_of_reached hal (hI.reached hal hle hin)] at hf
      cases hf
    · rw [heapFree_run, if_neg (by omega), if_pos hf]
      exact ⟨_, rfl⟩
    · rw [heapFreeAccesses_refused hle hf]
      intro access haccess
      rw [List.mem_singleton.mp haccess]
      exact hin
  · have hr := hI.reached hal hle hin
    have hsh := hI.shows al hal
    have hblock := freeStartBlock_of_reached hsh.placed hr
    refine ⟨fun al' hal' haddr => ?_, fun hnone => absurd rfl (hnone al hal), ?_⟩
    · rw [hI.live_unique hal' hal haddr]
      exact (freesExactly_iff hI hal).mpr ⟨hone, hr⟩
    · rw [heapFreeAccesses_single hle (hI.first_of_reached hal hr)]
      · intro access haccess
        simp only [List.mem_cons, List.not_mem_nil, or_false] at haccess
        rcases haccess with rfl | rfl | rfl
        · exact hin
        · exact hin
        · exact hnext
      · rw [hblock] at hnext ⊢
        exact hsh.single hone hnext

end

/-- **Which addresses are treated as they should be**, in every state that a history reaches. -/
theorem freesOnlyLive_iff {s s' : HeapState} {tr : List (HeapState × HeapCall)} (hs : FreshHeap s)
    (h : Run HeapStep s tr s') (address : Nat) : FreesOnlyLive s' address ↔ FreeSafe s' address :=
  ⟨FreeSafe.of_freesOnlyLive (heapInv_of_run hs h), FreesOnlyLive.of_freeSafe (heapInv_of_run hs h)⟩

/-- An allocation of one byte, the only one in a heap of four blocks, is given back. -/
theorem freesOnlyLive_four : ∃ tr s, Run HeapStep (newHeap 4) tr s ∧
    s.live = [⟨memoryHeapStartAddress, 1⟩] ∧ FreesOnlyLive s memoryHeapStartAddress := by
  have hrun := (Run.refl (newHeap 4) : Run HeapStep _ _ _).tail
    (HeapStep.malloc (n := 1) (by decide) rfl)
  refine ⟨_, _, hrun, by decide, ?_⟩
  refine (freesOnlyLive_iff (freshHeap_new (by decide) (by decide)) hrun memoryHeapStartAddress).mpr
    (Or.inr ⟨by decide, by decide, Or.inr ⟨⟨memoryHeapStartAddress, 1⟩, by decide, rfl, by decide, by decide⟩⟩)

/-- **An address inside the allocation is accepted; and where there is no block behind it, a word
behind the table is read.** -/
theorem interior_address_freed : (∃ tr s, Run HeapStep (newHeap 4) tr s ∧
      s.live = [⟨memoryHeapStartAddress, 1⟩] ∧ ¬ FreesOnlyLive s (memoryHeapStartAddress + 1)) ∧
    ∃ tr s, Run HeapStep (newHeap 1) tr s ∧
      s.live = [⟨memoryHeapStartAddress, 1⟩] ∧ ¬ FreesOnlyLive s memoryHeapStartAddress := by
  constructor
  · have hrun := (Run.refl (newHeap 4) : Run HeapStep _ _ _).tail
      (HeapStep.malloc (n := 1) (by decide) rfl)
    refine ⟨_, _, hrun, by decide, fun hright => ?_⟩
    obtain ⟨message, herr⟩ := hright.refuses (by decide)
    exact heapFree_ne_error (by decide) (by decide) herr
  · have hrun := (Run.refl (newHeap 1) : Run HeapStep _ _ _).tail
      (HeapStep.malloc (n := 1) (by decide) rfl)
    refine ⟨_, _, hrun, by decide, fun hright => ?_⟩
    rcases FreeSafe.of_freesOnlyLive (heapInv_of_run (freshHeap_new (by decide) (by decide)) hrun) hright
      with ⟨hlt, -⟩ | ⟨-, -, hfirst | ⟨-, -, -, -, hnext⟩⟩
    · exact absurd hlt (by decide)
    · exact absurd hfirst (by decide)
    · exact absurd hnext (by decide)

end KokoOs
