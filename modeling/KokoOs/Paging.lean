/-
# Page tables (`lib/memory/paging.c`)

A chunk is a directory of 1024 tables of 1024 entries, all of them allocated from the heap and
kept in memory as 32-bit words.  `paging_create_chunk` fills them so that every page is mapped
to itself, and `paging_set` rewrites the entry of one page through the directory.

The hardware's use of the directory is the two-level walk `pagingWalk`, which is not in
`paging.c` but is what its tables are for.  It takes the directory entry of the upper ten bits of an
address, goes to the table that this points to, and answers the entry of the next ten bits.
`paging_set` computes the same two indices by division (`pagingGetIndexes`), and compares nothing but
the alignment of the address.
-/
import KokoOs.Heap

namespace KokoOs

open Bytes

abbrev pagingPageIsWritable : Nat := 0x2
abbrev pagingPageEntries : Nat := 1024
abbrev pagingPageSize : Nat := 4096

/-- The address of element `i` of an array of 32-bit words at `base`. -/
def wordAddress (base i : Nat) : Nat := (base + 4 * i) % 2 ^ 32

/-! ## 1. Creating the identity map -/

/-- The inner loop of `paging_create_chunk`, from entry `j` on, with `fuel` entries to go. -/
def pagingFillTable (entry offset flags : Nat) : Nat → Nat → Mem → Mem
  | 0, _, m => m
  | fuel + 1, j, m =>
    pagingFillTable entry offset flags fuel (j + 1)
      (putU32 m (wordAddress entry j) ((offset + j * pagingPageSize) % 2 ^ 32 ||| flags))

/-- The outer loop, from table `i` on, with `fuel` tables to go. -/
def pagingCreateTables (directory flags : Nat) : Nat → Nat → Nat → HeapM Unit
  | 0, _, _ => pure ()
  | fuel + 1, i, offset => do
    let entry ← heapMalloc (4 * pagingPageEntries)
    modify fun s =>
      let filled := pagingFillTable entry offset flags pagingPageEntries 0 s.mem
      { s with mem := putU32 filled (wordAddress directory i)
                        (entry ||| flags ||| pagingPageIsWritable) }
    pagingCreateTables directory flags fuel (i + 1)
      ((offset + pagingPageEntries * pagingPageSize) % 2 ^ 32)

/-- `paging_create_chunk`; the chunk is a single word, its `directory`. -/
def pagingCreateChunk (flags : UInt8) : HeapM Nat := do
  let directory ← heapMalloc (4 * pagingPageEntries)
  pagingCreateTables directory flags.toNat pagingPageEntries 0 0
  let chunk ← zalloc 4
  modify fun s => { s with mem := putU32 s.mem chunk directory }
  return chunk

/-! ## 2. Setting an entry -/

def pagingIsAligned (address : Nat) : Bool := address % pagingPageSize == 0

/-- `Paging_Index_Info`. -/
structure PagingIndexInfo where
  errorCode : Int
  tableIndex : Nat
  directoryIndex : Nat

def pagingGetIndexes (virtualAddress : Nat) : PagingIndexInfo :=
  if !pagingIsAligned virtualAddress then
    { errorCode := pagingMemoryNotAligned, tableIndex := 0, directoryIndex := 0 }
  else
    { errorCode := ok
      directoryIndex := virtualAddress / (pagingPageEntries * pagingPageSize)
      tableIndex := virtualAddress % (pagingPageEntries * pagingPageSize) / pagingPageSize }

def pagingSet (directory virtualAddress flags : Nat) : HeapM Int := do
  if !pagingIsAligned virtualAddress then return pagingMemoryNotAligned
  else
    let info := pagingGetIndexes virtualAddress
    if info.errorCode ≠ ok then return info.errorCode
    else
      let s ← get
      let entry := u32 s.mem (wordAddress directory info.directoryIndex)
      let table := entry &&& 0xfffff000
      set { s with mem := putU32 s.mem (wordAddress table info.tableIndex) flags }
      return ok

/-- `paging_set(chunk->directory, v, e)`. -/
def pagingSetChunk (chunk : Nat) (call : Nat × Nat) : HeapM Int := do
  let s ← get
  pagingSet (u32 s.mem chunk) call.1 call.2

/-- A sequence of such calls, with what each of them answers. -/
def pagingSetAll (chunk : Nat) : List (Nat × Nat) → HeapM (List Int)
  | [] => pure []
  | call :: calls => do
    let code ← pagingSetChunk chunk call
    let codes ← pagingSetAll chunk calls
    return code :: codes

/-! ## 3. The walk -/

/-- The walk of the hardware from a page directory. -/
def pagingWalk (m : Mem) (directory v : Nat) : Nat :=
  let entry := u32 m (wordAddress directory (v >>> 22))
  u32 m (wordAddress (entry &&& 0xfffff000) ((v >>> 12) &&& 0x3ff))

end KokoOs
