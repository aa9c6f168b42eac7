/-
# Paths (`lib/fs/path_parser.c`)

A path `d:/c1/c2/../cn` is parsed into a `Path_Root` with a list of `Path_Part` nodes.  The nodes
live in memory: a `Path_Part` has its `name` at offset 0 and `next` at 4, a `Path_Root` its
`driver_no` at 0 and `part` at 4.

A turn of the loop is cut into what comes before the `break` (`pathParserNewPart`) and what comes behind
it (`pathParserRest`).  `part->next` is first set to the part *before*, and only corrected when another
part follows; the recursion of `path_parser_free_part` writes nothing on its way down, so a list
that is a cycle keeps it going for ever.
-/
import KokoOs.Str

namespace KokoOs

open Bytes

/-- Store a 32-bit word. -/
def storeWord (address value : Nat) : HeapM Unit := storeHeap fun m => putU32 m address value

/-- Where `start_path_slice` is on the stack. -/
abbrev startPathSlice : Nat := 0x001ff000

/-- `path_parser_is_path_valid`.  `start_path_slice` has two bytes, but the slice has two
characters and a NUL. -/
def pathParserIsPathValid (path : Nat) : HeapM Bool := do
  let s ← get
  let length ← orHang (strlen (strAt s.mem path))
  if length > kernelMaxPathSize then return false
  else if !isDigit (s.mem path) then return false
  else
    strSlice startPathSlice path 1 2
    let s ← get
    let cmp ← orHang (strCmp (strAt s.mem startPathSlice) (literal [58, 47]))
    return cmp == 0

/-- The name of a new part: the rest of the path, or the part of it up to the separator. -/
def pathParserSetName (part restOfPath : Nat) (separatorIndex : Int) : HeapM Unit :=
  if separatorIndex ≤ 0 then do
    let name ← strCopy restOfPath
    storeWord part name
  else do
    let name ← heapMalloc (separatorIndex.toNat + 1)
    storeWord part name
    strSlice name restOfPath 0 separatorIndex.toNat

/-- One turn of the loop of `path_parser_parse_path` up to the `break`: a new part behind
`previousPart`, with the next component as its name. -/
def pathParserNewPart (previousPart restOfPath : Nat) (separatorIndex : Int) : HeapM Nat := do
  let part ← heapMalloc 8
  storeWord (part + 4) previousPart
  pathParserSetName part restOfPath separatorIndex
  if previousPart ≠ 0 then storeWord (previousPart + 4) part
  return part

/-- The rest of a turn: what is behind the separator moves to a string of its own. -/
def pathParserRest (restOfPath separatorIndex : Nat) : HeapM Nat := do
  let s ← get
  let restOfPathLen ← orHang (strlen (strAt s.mem restOfPath))
  let newPath ← heapMalloc (4 * (restOfPathLen - separatorIndex))
  strSlice newPath restOfPath (separatorIndex + 1) restOfPathLen
  heapFree restOfPath
  return newPath

/-- The loop of `path_parser_parse_path`.  It returns `part`, `first_part` and `rest_of_path`.
Every turn but the last shortens the rest of the path, so `fuel` beyond its length is never
used up. -/
def pathParserLoop : Nat → Nat → Nat → Nat → Int → HeapM (Nat × Nat × Nat)
  | 0, _, _, _, _ => throw .hang
  | fuel + 1, previousPart, firstPart, restOfPath, separatorIndex => do
    let part ← pathParserNewPart previousPart restOfPath separatorIndex
    let firstPart := if firstPart = 0 then part else firstPart
    if separatorIndex ≤ 0 then
      heapFree restOfPath
      return (part, firstPart, restOfPath)
    else
      let newPath ← pathParserRest restOfPath separatorIndex.toNat
      let s ← get
      let separatorIndex ← orHang (strIndexOf (strAt s.mem newPath) 47)
      if separatorIndex ≥ 0 then pathParserLoop fuel part firstPart newPath separatorIndex
      else return (part, firstPart, newPath)

/-- The branch behind the loop: what is left of the path becomes the name of one more part. -/
def pathParserLast (part restOfPath : Nat) : HeapM Unit := do
  let last ← heapMalloc 8
  storeWord last restOfPath
  storeWord (last + 4) 0
  storeWord (part + 4) last

/-- The new root. -/
def pathParserRoot (driveNo : UInt8) (firstPart : Nat) : HeapM Nat := do
  let root ← heapMalloc 8
  storeHeap fun m => Function.update m root driveNo
  storeWord (root + 4) firstPart
  return root

/-- `path_parser_parse_path`. -/
def pathParserParsePath (path : Nat) : HeapM Nat := do
  let valid ← pathParserIsPathValid path
  if !valid then return 0
  else
    let s ← get
    let driveNo := getDigit (s.mem path)
    let pathLength ← orHang (strlen (strAt s.mem path))
    let restOfPath ← heapMalloc (4 * (pathLength - 2))
    strSlice restOfPath path 3 pathLength
    let s ← get
    let separatorIndex ← orHang (strIndexOf (strAt s.mem restOfPath) 47)
    let (part, firstPart, restOfPath) ← pathParserLoop (pathLength + 1) 0 0 restOfPath separatorIndex
    let s ← get
    let restLength ← orHang (strlen (strAt s.mem restOfPath))
    if restLength > 0 then pathParserLast part restOfPath
    pathParserRoot driveNo firstPart

/-- `path_parser_free_part`.  Nothing is written on the way down, so a recursion that has not come to
NULL after `2 ^ 32` parts, which is more than there are addresses, goes on for ever. -/
def pathParserFreePart : Nat → Nat → HeapM Unit
  | 0, _ => throw .hang
  | fuel + 1, part => do
    if part = 0 then return
    else
      let s ← get
      pathParserFreePart fuel (u32 s.mem (part + 4))
      let s ← get
      heapFree (u32 s.mem part)
      heapFree part

/-- `path_parser_free_root`. -/
def pathParserFreeRoot (root : Nat) : HeapM Unit := do
  if root = 0 then return
  else
    let s ← get
    pathParserFreePart (2 ^ 32) (u32 s.mem (root + 4))
    heapFree root

end KokoOs
