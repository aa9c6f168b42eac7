/-
# The block heap (`lib/memory/heap.c`, `memset` of `lib/memory/memory.c`)

The heap hands out whole blocks of 4096 bytes.  A table holds one word per block; the flags of
the words spell out the allocations: the first block of one carries `HEAP_IS_FIRST`, blocks
inside carry `HEAP_HAS_NEXT`, and the last block of a longer one carries `HEAP_ENTRY_TAKEN`
alone.

The table is the array `entries` of `table->total` words.  `heap_free` looks at the word behind
the one it clears without comparing with `total`, so the model keeps the words behind the table
too: `entries i` for `i ≥ total` is the word of memory that the index would reach.  An index is
scaled by four and added to a 32-bit pointer, so indices are read modulo `2 ^ 30`.

Three places of the transcription are easily read past, and each of them matters later.

* **Rounding.**  An amount is rounded up to whole blocks in 32-bit arithmetic, so the largest amounts
  become 0.
* **The empty request.**  It is answered by NULL and the block range from 0 to 0, and the marking loop
  of `heap_malloc` runs over that range like over any other.
* **Freeing.**  The loop clears words for as long as they carry `HEAP_HAS_NEXT`, which the last word of
  an allocation does not; and the index of the zeroing stays where it was.
-/
import KokoOs.Config
import KokoOs.Lib.Prog
import KokoOs.Lib.Bytes
import Mathlib.Logic.Function.Basic

namespace KokoOs

open Bytes

/-! ## 1. The data -/

/-- A word of the heap table. -/
abbrev HeapEntry := UInt32

abbrev heapEntryFree : HeapEntry := 0x00
abbrev heapEntryTaken : HeapEntry := 0x01
abbrev heapHasNext : HeapEntry := 0x80
abbrev heapIsFirst : HeapEntry := 0x40

/-- `Heap_Table`: how many blocks there are, and the words at and behind `entries`. -/
structure HeapTable where
  total : Nat
  entries : Nat → HeapEntry

/-- `table->entries[i]`. -/
def HeapTable.entry (t : HeapTable) (i : Nat) : HeapEntry := t.entries (i % 2 ^ 30)

/-- `table->entries[i] = e`. -/
def HeapTable.setEntry (t : HeapTable) (i : Nat) (e : HeapEntry) : HeapTable :=
  { t with entries := Function.update t.entries (i % 2 ^ 30) e }

/-- `Heap`. -/
structure Heap where
  table : HeapTable
  startAddress : Nat

/-- A heap and the memory it manages, which is the state its operations work on. -/
structure Arena where
  heap : Heap
  mem : Mem

/-- Programs of the heap. -/
abbrev HeapM := EStateM Halt Arena

/-- `Memory_Details`. -/
structure MemoryDetails where
  startAddress : Nat
  endBlock : Nat
  startBlock : Nat

/-! ## 2. Creating a heap -/

def heapValidateAlignment (address : Nat) : Bool := address % 4096 == 0

/-- `heap_create_table`: `words` is what memory holds from the table's address on. -/
def heapCreateTable (words : Nat → HeapEntry) (availableBytes : Nat) : Except Int HeapTable :=
  if availableBytes < kernelHeapBlockSize then .error heapAvailableMemoryLessThanBlock
  else .ok { total := availableBytes / kernelHeapBlockSize, entries := words }

def heapValidateTable (start end_ : Nat) (table : HeapTable) : Int :=
  let expectedSize := (end_ + 2 ^ 32 - start) % 2 ^ 32
  let expectedBlocks := expectedSize / kernelHeapBlockSize
  if table.total ≠ expectedBlocks then heapTableLowBytesAvailable else ok

/-- `heap_create`, over the memory `mem`. -/
def heapCreate (mem : Mem) (startAddress : Nat) (table : HeapTable) : Except Int Arena :=
  let endAddr := (startAddress + table.total * kernelHeapBlockSize) % 2 ^ 32
  if !heapValidateAlignment startAddress || !heapValidateAlignment endAddr then
    .error heapMemoryNotAligned
  else if heapValidateTable startAddress endAddr table ≠ ok then
    .error (heapValidateTable startAddress endAddr table)
  else
    let cleared := fun i => if i < table.total then heapEntryFree else table.entries i
    .ok { heap := { table := { table with entries := cleared }, startAddress }, mem }

/-! ## 3. Reading the flags -/

/-- `heap_align_amount_of_bytes_requested`, in 32-bit arithmetic. -/
def heapAlignAmountOfBytesRequested (amountOfBytes : Nat) : Nat :=
  if amountOfBytes % kernelHeapBlockSize = 0 then amountOfBytes
  else
    (amountOfBytes - amountOfBytes % kernelHeapBlockSize + kernelHeapBlockSize) % 2 ^ 32

def heapEntryIsTaken (entry : HeapEntry) : Bool := entry &&& heapEntryTaken == 1

def heapEntryIsFree (entry : HeapEntry) : Bool := !heapEntryIsTaken entry

def heapEntryHasNext (entry : HeapEntry) : Bool := entry &&& heapHasNext > 0

def heapEntryIsFirst (entry : HeapEntry) : Bool := entry &&& heapIsFirst > 0

/-- `heap_get_address_from_block`. -/
def heapGetAddressFromBlock (heap : Heap) (startBlock : Nat) : Nat :=
  (heap.startAddress + startBlock * kernelHeapBlockSize) % 2 ^ 32

/-! ## 4. Allocating -/

/-- The scan of `heap_request_memory` from index `i` on, with `fuel` indices to go.  It keeps
where the current run of free blocks started and how long it is, and stops as soon as it is
long enough. -/
def heapRequestLoop (table : HeapTable) (requiredBlocks : Nat) :
    Nat → Nat → Nat → Nat → Nat × Nat
  | 0, _, currentBlock, blockCount => (currentBlock, blockCount)
  | fuel + 1, i, currentBlock, blockCount =>
    let isFree := heapEntryIsFree (table.entry i)
    let currentBlock := if isFree then (if blockCount = 0 then i else currentBlock) else 0
    let blockCount := if isFree then blockCount + 1 else 0
    if blockCount = requiredBlocks then (currentBlock, blockCount)
    else heapRequestLoop table requiredBlocks fuel (i + 1) currentBlock blockCount

/-- `heap_request_memory`. -/
def heapRequestMemory (amountOfBytes : Nat) : HeapM MemoryDetails := do
  let s ← get
  if amountOfBytes = 0 then
    return { startAddress := 0, startBlock := 0, endBlock := 0 }
  else
    let requiredBlocks := amountOfBytes / kernelHeapBlockSize
    let scan := heapRequestLoop s.heap.table requiredBlocks s.heap.table.total 0 0 0
    if scan.2 ≠ requiredBlocks then throw (.panic "Not enough memory")
    else
      return { startAddress := heapGetAddressFromBlock s.heap scan.1, startBlock := scan.1,
               endBlock := scan.1 + scan.2 - 1 }

/-- The word `heap_malloc` writes for block `i` of the range it was given. -/
def heapMarkEntry (details : MemoryDetails) (i : Nat) : HeapEntry :=
  let entry := (0 : HeapEntry) ||| heapEntryTaken
  if i = details.startBlock then entry ||| heapIsFirst
  else if i ≠ details.endBlock then entry ||| heapHasNext
  else entry

/-- The marking loop of `heap_malloc`, with `fuel` blocks to go. -/
def heapMarkLoop (details : MemoryDetails) : Nat → Nat → HeapTable → HeapTable
  | 0, _, table => table
  | fuel + 1, i, table =>
    heapMarkLoop details fuel (i + 1) (table.setEntry i (heapMarkEntry details i))

/-- `heap_malloc`.  The loop runs for the empty request too, whose range is block 0. -/
def heapMalloc (amountOfBytes : Nat) : HeapM Nat := do
  let details ← heapRequestMemory (heapAlignAmountOfBytesRequested amountOfBytes)
  modify fun s =>
    let blocks := details.endBlock + 1 - details.startBlock
    { s with heap.table := heapMarkLoop details blocks details.startBlock s.heap.table }
  return details.startAddress

/-- Byte `k` of the word `c`, little-endian. -/
def memsetByte (c : UInt32) (k : Nat) : UInt8 := (c >>> (8 * UInt32.ofNat (k % 4))).toUInt8

/-- `memset`: it stores `c` in whole words, `size / 4` of them. -/
def memset (mem : Mem) (ptr : Nat) (c : UInt32) (size : Nat) : Mem := fun x =>
  if ptr ≤ x ∧ x < ptr + 4 * (size / 4) then memsetByte c (x - ptr) else mem x

/-- `zalloc`. -/
def zalloc (amountOfBytes : Nat) : HeapM Nat := do
  let ptr ← heapMalloc amountOfBytes
  modify fun s => { s with mem := memset s.mem ptr 0 amountOfBytes }
  return ptr

/-! ## 5. Freeing -/

/-- The index `heap_free` computes from an address: the difference of two pointers is a signed
32-bit number, and its quotient by the block size is rounded towards zero. -/
def heapBlockOfAddress (heap : Heap) (address : Nat) : Nat :=
  let difference := address - heap.startAddress
  if difference < 2 ^ 31 then difference / kernelHeapBlockSize
  else (2 ^ 32 - (2 ^ 32 - difference) / kernelHeapBlockSize) % 2 ^ 32

/-- `start_block` of `heap_free`. -/
def heapFreeStartBlock (heap : Heap) (address : Nat) : Nat :=
  if heap.startAddress ≠ address then heapBlockOfAddress heap address else 0

/-- One turn of the loop of `heap_free`: the word at `currentBlock` is cleared, and so are the
bytes of block `startBlock` (the index of the zeroing does not move along). -/
def heapFreeTurn (startBlock currentBlock : Nat) (s : Arena) : Arena :=
  { heap := { s.heap with table := s.heap.table.setEntry currentBlock heapEntryFree }
    mem := memset s.mem (heapGetAddressFromBlock s.heap startBlock) 0 kernelHeapBlockSize }

/-- The do-while loop of `heap_free`.  After `2 ^ 30` turns every word of memory has been
cleared and the loop condition is false, so `fuel` never cuts it short. -/
def heapFreeLoop (startBlock : Nat) : Nat → Nat → Arena → Arena
  | 0, _, s => s
  | fuel + 1, currentBlock, s =>
    let s' := heapFreeTurn startBlock currentBlock s
    if heapEntryHasNext (s'.heap.table.entry (currentBlock + 1)) then
      heapFreeLoop startBlock fuel (currentBlock + 1) s'
    else s'

/-- `heap_free`. -/
def heapFree (address : Nat) : HeapM Unit := do
  let s ← get
  if s.heap.startAddress > address then
    throw (.panic "Invalid address is going to be freed!")
  else
    let startBlock := heapFreeStartBlock s.heap address
    if !heapEntryIsFirst (s.heap.table.entry startBlock) then
      throw (.panic "Address is not the beginning of an address block!")
    else
      set (heapFreeLoop startBlock (2 ^ 30) startBlock s)

end KokoOs
