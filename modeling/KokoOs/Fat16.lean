/-
# The FAT16 driver (`lib/fs/fat16/fat16.c`)

The structs the driver reaches by field are records, next to the addresses they were allocated
at; what is read from and written to the disk goes through memory.  Addresses that are made of
the bytes of a name (see `fat16FreeDirectory`) designate no object: going through them is
`Halt.fault`.

Loops that need not end take fuel, and each says beside it why its fuel is never used up before the loop
has come back to where it was: a 16-bit cluster, a 32-bit position, an address.

The driver departs in several places from what a FAT16 volume is.  The transcription keeps all of them,
and the files that follow take them up one by one:

* **The table.**  The position of an entry is a product of two addresses (`fat16GetFatEntry`), and the
  markers are those of 12 bits.
* **Directories.**  The union of an item always ends up with the clone of its entry, so a subdirectory is
  never what its item says (`fat16FindItemInItem`); and deleted entries count (`fat16CountItems`).
* **Writing.**  A write begins at the first cluster, wherever the position is, and a first write puts a
  cluster into the entry but not into the table (`fat16FirstWrite`).
* **Failing.**  A walk that has failed goes on with its status as a cluster
  (`fat16ReadInternalFromStream`), and a mount that has failed resets the streams of a block that it
  has freed (`fat16Resolve`).
-/
import KokoOs.DiskStream
import KokoOs.Str

namespace KokoOs

open Bytes

/-! ## 1. The data -/

/-- The fields of the `Fat_Header` that is stored at `p`. -/
def FatHeader.read (m : Mem) (p : Nat) : FatHeader where
  sectorsPerCluster := (m (p + 13)).toNat
  reservedSectors := u16 m (p + 14)
  fatCopies := (m (p + 16)).toNat
  rootDirEntries := u16 m (p + 17)
  sectorsPerFat := u16 m (p + 22)
  sectorsBig := u32 m (p + 32)
  bootSignature := (m (p + 38)).toNat

namespace FatDirectoryItem

/-- The fields of a `Fat_Directory_Item` that are not its name. -/
def attributes (item : FatDirectoryItem) : UInt8 := literal item 11
def high16BitsFirstCluster (item : FatDirectoryItem) : Nat := u16 (literal item) 20
def low16BitsFirstCluster (item : FatDirectoryItem) : Nat := u16 (literal item) 26
def filesize (item : FatDirectoryItem) : Nat := u32 (literal item) 28

/-- `item->low_16_bits_first_cluster = cluster`. -/
def setLow16 (item : FatDirectoryItem) (cluster : Nat) : FatDirectoryItem :=
  (item.set 26 (UInt8.ofNat cluster)).set 27 (UInt8.ofNat (cluster / 256))

/-- `FAT_FILE_ATTRIBUTES_SUBDIRECTORY`. -/
def isSubdirectory (item : FatDirectoryItem) : Bool := item.attributes &&& 0x10 != 0

end FatDirectoryItem

inductive FatItemType where
  | directory
  | file
  deriving DecidableEq

/-- A `Fat_Item`.  Its union always ends up with the pointer to the clone of the entry. -/
structure FatItem where
  address : Nat
  itemAddress : Nat
  item : FatDirectoryItem
  type : FatItemType

/-- A `Fat_File_Descriptor`. -/
structure FatFileDescriptor where
  address : Nat
  item : FatItem
  pos : Nat

inductive FileMode where
  | read
  | write
  | append
  deriving DecidableEq

/-- A `SEEK_MODE`, or another value that is passed as one. -/
inductive SeekMode where
  | set
  | cur
  | fromEnd
  | other
  deriving DecidableEq

structure FileStat where
  flags : Nat
  size : Nat
  deriving DecidableEq

/-- Follow a pointer. -/
def orFault {α : Type} : Option α → SysM α
  | some x => pure x
  | none => throw .fault

/-- What a loop that never ends means for the caller. -/
def orHangs {α : Type} : Option α → SysM α
  | some x => pure x
  | none => throw .hang

/-- `disk->fs_private`. -/
def fsPrivate (disk : DiskRef) : SysM FatPrivate := do
  let s ← get
  orFault (s.disks disk).fsPrivate

/-- `*disk`. -/
def diskOf (disk : DiskRef) : SysM Disk := do
  let s ← get
  return s.disks disk

/-! ## 2. Sectors and clusters -/

def fat16SectorToAbsolutePos (disk : Disk) (sector : Nat) : Nat :=
  sector * disk.sectorSize % 2 ^ 32

def fat16RootDirectorySector (header : FatHeader) : Nat :=
  header.fatCopies * header.sectorsPerFat + header.reservedSectors

/-- `fat16_get_first_cluster`: the high half is not shifted. -/
def fat16GetFirstCluster (item : FatDirectoryItem) : Nat :=
  item.high16BitsFirstCluster ||| item.low16BitsFirstCluster

def fat16ClusterToSector (fatPrivate : FatPrivate) (cluster : Nat) : Nat :=
  let relativeSectorLocation := (cluster + 2 ^ 32 - 2) * fatPrivate.header.sectorsPerCluster
  (fatPrivate.rootDirectory.endingSectorPos + relativeSectorLocation) % 2 ^ 32

/-- `fat16_get_cluster_size`. -/
def fat16ClusterSize (disk : Disk) (fatPrivate : FatPrivate) : Nat :=
  fat16SectorToAbsolutePos disk fatPrivate.header.sectorsPerCluster

/-- The status or value `i`, as an `unsigned int`. -/
def toUnsigned (i : Int) : Nat := (i % 2 ^ 32).toNat

/-! ## 3. The file allocation table -/

/-- `fat16_get_fat_entry`.  The position on the disk is the product of the first sector of the
table and the offset of the entry. -/
def fat16GetFatEntry (disk : DiskRef) (cluster : Nat) : SysM Int := do
  let fatPrivate ← fsPrivate disk
  let stream := fatPrivate.fatReadStream
  if stream = 0 then return systemFail
  else
    let fatTablePosition := fatPrivate.header.reservedSectors
    let res ← diskStreamSeek stream (fatTablePosition * (cluster * 2) % 2 ^ 32)
    if res ≠ ok then return systemFail
    else
      let res ← diskStreamRead stream stackBuffer 2
      if res ≠ ok then return systemFail
      else
        let s ← get
        return (u16 s.arena.mem stackBuffer : Int)

def fat16IsEntryInvalid (entry : Int) : Bool :=
  entry == 0xFF8 || entry == 0xFFF || entry == 0xFF0 || entry == 0xFF6 || entry == 0x00 ||
    entry == 0xFF7

def fat16IsEntryFree (entry : Int) : Bool := entry == 0x00

/-- The loop of `fat16_get_cluster_for_offset`, with `fuel` clusters to go. -/
def fat16WalkClusters (disk : DiskRef) : Nat → Nat → SysM Int
  | 0, cluster => return (cluster : Int)
  | fuel + 1, cluster => do
    let entry ← fat16GetFatEntry disk cluster
    if fat16IsEntryInvalid entry then return systemFail
    else fat16WalkClusters disk fuel (toUnsigned entry)

/-- `fat16_get_cluster_for_offset`. -/
def fat16GetClusterForOffset (disk : DiskRef) (cluster offset : Nat) : SysM Int := do
  let d ← diskOf disk
  let fatPrivate ← fsPrivate disk
  let sizeOfClusterBytes := fat16ClusterSize d fatPrivate
  if sizeOfClusterBytes = 0 then throw .fault
  else fat16WalkClusters disk (offset / sizeOfClusterBytes) cluster

/-! ## 4. Reading -/

/-- `fat16_read_internal_from_stream`.  The recursion goes on from the cluster of the offset, with
the offset of the file.  The cluster is unsigned, so the test for an error is never true. -/
def fat16ReadInternalFromStream (disk : DiskRef) (stream : Nat) :
    Nat → Nat → Nat → Nat → Nat → SysM Int
  | 0, _, _, _, _ => throw .hang
  | fuel + 1, cluster, offset, total, out => do
    let res ← fat16GetClusterForOffset disk cluster offset
    let cluster := toUnsigned res
    if cluster < 0 then return invalidArgument
    else
      let d ← diskOf disk
      let fatPrivate ← fsPrivate disk
      let sizeOfClusterBytes := fat16ClusterSize d fatPrivate
      let offsetFromCluster := offset % sizeOfClusterBytes
      let startSector := fat16ClusterToSector fatPrivate cluster
      let startPos := (fat16SectorToAbsolutePos d startSector + offsetFromCluster) % 2 ^ 32
      let totalToRead := if total > sizeOfClusterBytes then sizeOfClusterBytes else total
      let res ← diskStreamSeek stream startPos
      if res ≠ ok then return systemFail
      else
        let res ← diskStreamRead stream out totalToRead
        if res ≠ ok then return systemFail
        else
          let total := total - totalToRead
          if total > 0 then
            fat16ReadInternalFromStream disk stream fuel cluster
              ((offset + totalToRead) % 2 ^ 32) total ((out + totalToRead) % 2 ^ 32)
          else return ok

/-- `fat16_read_internal`.  Every call of the recursion reads at least one byte. -/
def fat16ReadInternal (disk : DiskRef) (cluster offset total out : Nat) : SysM Int := do
  let fatPrivate ← fsPrivate disk
  fat16ReadInternalFromStream disk fatPrivate.clusterReadStream (total + 1) cluster offset total out

/-- The loop of `fat16_get_total_items_for_directory`.  After `2 ^ 27` items the position has come
around, and the loop never ends.  A `char` is signed, so no item counts as empty. -/
def fat16CountItems (stream : Nat) : Nat → Int → SysM Int
  | 0, _ => throw .hang
  | fuel + 1, itemsCount => do
    let res ← diskStreamRead stream stackBuffer 32
    if res ≠ ok then return diskFailToReadStream
    else
      let s ← get
      let first := signedChar (s.arena.mem stackBuffer)
      if first = 0 then return itemsCount
      else if first = 0xe5 then fat16CountItems stream fuel itemsCount
      else fat16CountItems stream fuel (itemsCount + 1)

/-- `fat16_get_total_items_for_directory`. -/
def fat16GetTotalItemsForDirectory (disk : DiskRef) (startSector : Nat) : SysM Int := do
  let d ← diskOf disk
  let fatPrivate ← fsPrivate disk
  let stream := fatPrivate.directoryStream
  let res ← diskStreamSeek stream (fat16SectorToAbsolutePos d startSector)
  if res ≠ ok then return diskFailSetStreamPos
  else fat16CountItems stream (2 ^ 27) 0

/-! ## 5. Names -/

/-- `fat16_to_proper_string`, on the bytes from `in` to the end of the array it lies in: what it
copies, unless it runs off the array. -/
def fat16ToProperString (input : List UInt8) : Option (List UInt8) :=
  let name := input.takeWhile fun c => c ≠ 0x00 ∧ c ≠ 0x20
  if name.length < input.length then some name else none

/-- `fat16_get_full_relative_filename`, into the 256 bytes of `tmp_filename`.  The bytes are those
from the entry to the end of its array. -/
def fat16GetFullRelativeFilename (bytes : List UInt8) : Option (List UInt8) := do
  let name ← fat16ToProperString bytes
  let ext0 ← bytes[8]?
  let full ←
    if ext0 ≠ 0x00 ∧ ext0 ≠ 0x20 then do
      let ext ← fat16ToProperString (bytes.drop 8)
      pure (name ++ 46 :: ext)
    else pure name
  if full.length < kernelMaxPathSize then some full else none

/-! ## 6. Directories and items -/

/-- `free` of an address that is made of the bytes of a name: if it does not panic, whatever it
frees is nobody's. -/
def freeWild (address : Nat) : SysM Unit := do
  Sys.free address
  throw .fault

/-- `fat16_free_directory` of the `directory` of an item.  The union holds the clone of an entry, so
the `item` that is freed is made of the first four bytes of the name. -/
def fat16FreeDirectory (item : FatItem) : SysM Unit := do
  if u32 (literal item.item) 0 ≠ 0 then freeWild (u32 (literal item.item) 0)
  Sys.free item.itemAddress

/-- `fat16_free_item`. -/
def fat16FreeItem (item : FatItem) : SysM Unit :=
  match item.type with
  | .directory => do
    fat16FreeDirectory item
    Sys.free item.address
  | .file => do
    Sys.free item.itemAddress
    Sys.free item.address

/-- `fat16_clone_directory_item`. -/
def fat16CloneDirectoryItem (dirItem : FatDirectoryItem) (size : Nat) : SysM Nat := do
  if size < 32 then return 0
  else
    let copyDirItem ← Sys.zalloc size
    if copyDirItem = 0 then return 0
    else
      storeMem fun m => blit m copyDirItem (dirItem.take size)
      return copyDirItem

/-- `fat16_load_fat_directory`: the address of the new directory, or NULL.  The size is computed
from `directory->total` before that is set.  On a failing read the directory is freed before its
`item` is, which is the NULL of a cleared block by then. -/
def fat16LoadFatDirectory (disk : DiskRef) (dirItem : FatDirectoryItem) : SysM Nat := do
  if !dirItem.isSubdirectory then return 0
  else
    let directory ← Sys.zalloc 16
    if directory = 0 then return 0
    else
      let fatPrivate ← fsPrivate disk
      let cluster := fat16GetFirstCluster dirItem
      let clusterSector := fat16ClusterToSector fatPrivate cluster
      let _totalItems ← fat16GetTotalItemsForDirectory disk clusterSector
      let directoryTotal := 0
      let directorySize := directoryTotal * 32
      let item ← Sys.zalloc directorySize
      if item = 0 then
        Sys.free directory
        return 0
      else
        let res ← fat16ReadInternal disk cluster 0x00 directorySize item
        if res ≠ ok then
          Sys.free directory
          Sys.free 0
          return 0
        else return directory

/-- `fat16_new_fat_item_for_directory_item`. -/
def fat16NewFatItemForDirectoryItem (disk : DiskRef) (dirItem : FatDirectoryItem) :
    SysM (Option FatItem) := do
  let address ← Sys.zalloc 8
  if address = 0 then return none
  else
    if dirItem.isSubdirectory then
      let _directory ← fat16LoadFatDirectory disk dirItem
      let itemAddress ← fat16CloneDirectoryItem dirItem 32
      return some { address, itemAddress, item := dirItem, type := .directory }
    else
      let itemAddress ← fat16CloneDirectoryItem dirItem 32
      return some { address, itemAddress, item := dirItem, type := .file }

/-- The loop of `fat16_find_item_in_directory`, from item `i` on.  A later item of the name takes
the place of an earlier one. -/
def fat16FindLoop (disk : DiskRef) (directory : FatDirectory) (name : Nat) :
    Nat → Nat → Option FatItem → SysM (Option FatItem)
  | 0, _, item => return item
  | fuel + 1, i, item => do
    let dirItem ← orFault directory.loaded[i]?
    let tmpFilename ← orFault (fat16GetFullRelativeFilename (directory.loaded.drop i).flatten)
    let s ← get
    let cmp ← orHangs (strIcmp (literal tmpFilename) (strAt s.arena.mem name))
    if cmp = ok then
      let item ← fat16NewFatItemForDirectoryItem disk dirItem
      fat16FindLoop disk directory name fuel (i + 1) item
    else fat16FindLoop disk directory name fuel (i + 1) item

/-- `fat16_find_item_in_directory`. -/
def fat16FindItemInDirectory (disk : DiskRef) (directory : FatDirectory) (name : Nat) :
    SysM (Option FatItem) :=
  fat16FindLoop disk directory name directory.total 0 none

/-- `fat16_find_item_in_directory` in the `directory` of an item.  The union holds the clone of an
entry: the second four bytes of the name are taken for `total`, and the first ones for the address
of the items. -/
def fat16FindItemInItem (item : FatItem) : SysM (Option FatItem) :=
  if u32 (literal item.item) 4 = 0 then return none else throw .fault

/-- The loop of `fat16_get_directory_entry`. -/
def fat16DirectoryEntryLoop : Nat → Nat → Option FatItem → SysM (Option FatItem)
  | 0, _, _ => throw .hang
  | fuel + 1, nextPart, currentItem => do
    if nextPart = 0 then return currentItem
    else
      let item ← orFault currentItem
      if item.type ≠ .directory then return none
      else
        let tmpItem ← fat16FindItemInItem item
        fat16FreeItem item
        let s ← get
        fat16DirectoryEntryLoop fuel (u32 s.arena.mem (nextPart + 4)) tmpItem

/-- `fat16_get_directory_entry`.  A list of parts that comes back to itself is never left. -/
def fat16GetDirectoryEntry (disk : DiskRef) (path : Nat) : SysM (Option FatItem) := do
  let fatPrivate ← fsPrivate disk
  let s ← get
  let rootItem ← fat16FindItemInDirectory disk fatPrivate.rootDirectory (u32 s.arena.mem path)
  match rootItem with
  | none => return none
  | some rootItem =>
    let s ← get
    fat16DirectoryEntryLoop (2 ^ 32) (u32 s.arena.mem (path + 4)) (some rootItem)

/-! ## 7. Opening -/

/-- `fat16_open_for_read`. -/
def fat16OpenForRead (disk : DiskRef) (path : Nat) : SysM (Except Int FatFileDescriptor) := do
  let descriptor ← Sys.zalloc 8
  if descriptor = 0 then return .error heapMemoryNotMemoryLeft
  else
    let item ← fat16GetDirectoryEntry disk path
    match item with
    | none =>
      Sys.free descriptor
      return .error fsCannotGetFile
    | some item => return .ok { address := descriptor, item, pos := 0 }

/-- The entry `KOKO.TXT` that `fat16_new_file_item` makes, whatever the path. -/
def kokoItem : FatDirectoryItem :=
  [75, 79, 75, 79, 32, 32, 32, 32, 84, 88, 84] ++ List.replicate 21 0

/-- `fat16_new_file_item`. -/
def fat16NewFileItem : SysM FatItem := do
  let address ← Sys.zalloc 32
  let itemAddress ← Sys.zalloc 32
  storeMem fun m => blit m itemAddress kokoItem
  return { address, itemAddress, item := kokoItem, type := .file }

/-- `fat16_open_for_write`. -/
def fat16OpenForWrite (disk : DiskRef) (path : Nat) : SysM (Except Int FatFileDescriptor) := do
  let descriptor ← Sys.zalloc 8
  if descriptor = 0 then return .error heapMemoryNotMemoryLeft
  else
    let item ← fat16GetDirectoryEntry disk path
    match item with
    | none =>
      let item ← fat16NewFileItem
      return .ok { address := descriptor, item, pos := 0 }
    | some item => return .ok { address := descriptor, item, pos := 0 }

/-- `fat16_open`. -/
def fat16Open (disk : DiskRef) (path : Nat) (mode : FileMode) :
    SysM (Except Int FatFileDescriptor) :=
  match mode with
  | .read => fat16OpenForRead disk path
  | .write => fat16OpenForWrite disk path
  | .append => return .error invalidArgument

/-! ## 8. Reading and writing files -/

/-- The loop of `fat16_read`, with `fuel` elements to go. -/
def fat16ReadLoop (disk : DiskRef) (item : FatDirectoryItem) (size : Nat) :
    Nat → Nat → Nat → SysM Int
  | 0, _, _ => return ok
  | fuel + 1, offset, tempOut => do
    let res ← fat16ReadInternal disk (fat16GetFirstCluster item) offset size tempOut
    if res ≠ ok then return diskFailToReadStream
    else fat16ReadLoop disk item size fuel ((offset + size) % 2 ^ 32) ((tempOut + size) % 2 ^ 32)

/-- `fat16_read`.  It leaves the position where it is. -/
def fat16Read (disk : DiskRef) (out : Nat) (desc : FatFileDescriptor) (size nmemb : Nat) :
    SysM Int :=
  if desc.item.type ≠ .file then return invalidArgument
  else fat16ReadLoop disk desc.item.item size nmemb desc.pos out

/-- `fat16_end_cluster`. -/
def fat16EndCluster (disk : Disk) (fatPrivate : FatPrivate) : Nat :=
  let totalFatSize := fat16SectorToAbsolutePos disk fatPrivate.header.sectorsBig
  (totalFatSize / fat16ClusterSize disk fatPrivate + 2) % 2 ^ 16

/-- The loop of `fat16_get_free_cluster`.  The clusters are 16-bit numbers, so after `2 ^ 16` turns
that found nothing it goes on for ever. -/
def fat16FreeClusterLoop (disk : DiskRef) (clustersRequired endClusterOfFat : Nat) :
    Nat → Nat → Nat → SysM Nat
  | 0, _, _ => throw .hang
  | fuel + 1, startCluster, endCluster => do
    let entry ← fat16GetFatEntry disk startCluster
    if !fat16IsEntryFree entry then
      let startCluster := (endCluster + 1) % 2 ^ 16
      fat16FreeClusterLoop disk clustersRequired endClusterOfFat fuel startCluster startCluster
    else if endCluster > endClusterOfFat then return toUnsigned systemFail % 2 ^ 16
    else if startCluster + clustersRequired ≥ endCluster then return startCluster
    else
      fat16FreeClusterLoop disk clustersRequired endClusterOfFat fuel startCluster
        ((endCluster + 1) % 2 ^ 16)

/-- `fat16_get_free_cluster`. -/
def fat16GetFreeCluster (disk : DiskRef) (total : Nat) : SysM Nat := do
  let d ← diskOf disk
  let fatPrivate ← fsPrivate disk
  if fat16ClusterSize d fatPrivate = 0 then throw .fault
  else
    let clustersRequired := total / fat16ClusterSize d fatPrivate
    fat16FreeClusterLoop disk clustersRequired (fat16EndCluster d fatPrivate) (2 ^ 17) 3 3

/-- `fat16_get_next_item_position`. -/
def fat16GetNextItemPosition (disk : DiskRef) : SysM Nat := do
  let d ← diskOf disk
  let fatPrivate ← fsPrivate disk
  let startSector := fat16RootDirectorySector fatPrivate.header
  let directoryStartPos := fat16SectorToAbsolutePos d startSector
  let totalItems ← fat16GetTotalItemsForDirectory disk startSector
  return (directoryStartPos + 32 * toUnsigned totalItems) % 2 ^ 32

/-- What `fat16_write` does for an item that has no cluster yet: the item it becomes. -/
def fat16FirstWrite (disk : DiskRef) (item : FatItem) (size : Nat) : SysM FatItem := do
  let fatPrivate ← fsPrivate disk
  let cluster ← fat16GetFreeCluster disk size
  let entry := item.item.setLow16 cluster
  storeMem fun m => blit m item.itemAddress entry
  let writePos ← fat16GetNextItemPosition disk
  let dirStream := fatPrivate.directoryStream
  let _ ← diskStreamSeek dirStream writePos
  let _ ← diskStreamWrite dirStream item.itemAddress 32
  return { item with item := entry }

/-- `fat16_write`, with the descriptor it leaves. -/
def fat16Write (disk : DiskRef) (input : Nat) (desc : FatFileDescriptor) (size : Nat) :
    SysM (Int × FatFileDescriptor) := do
  if desc.item.type ≠ .file then return (invalidArgument, desc)
  else
    let d ← diskOf disk
    let fatPrivate ← fsPrivate disk
    let item ←
      if desc.item.item.low16BitsFirstCluster = 0 then fat16FirstWrite disk desc.item size
      else pure desc.item
    let desc := { desc with item }
    let sector := fat16ClusterToSector fatPrivate item.item.low16BitsFirstCluster
    let absolutePositionInDisk := fat16SectorToAbsolutePos d sector
    let clusterStream := fatPrivate.clusterReadStream
    let _ ← diskStreamSeek clusterStream absolutePositionInDisk
    let res ← diskStreamWrite clusterStream input size
    if res ≠ ok then return (diskFailToWriteStream, desc)
    else return (ok, desc)

/-! ## 9. Seeking, status and closing -/

/-- `fat16_seek`, with the descriptor it leaves. -/
def fat16Seek (desc : FatFileDescriptor) (offset : Nat) (mode : SeekMode) :
    Int × FatFileDescriptor :=
  if desc.item.type ≠ .file then (invalidArgument, desc)
  else if offset ≥ desc.item.item.filesize then (systemFail, desc)
  else
    match mode with
    | .set => (ok, { desc with pos := offset })
    | .fromEnd => (notImplemented, desc)
    | .cur =>
      if (desc.pos + offset) % 2 ^ 32 ≥ desc.item.item.filesize then (systemFail, desc)
      else (ok, { desc with pos := (desc.pos + offset) % 2 ^ 32 })
    | .other => (invalidArgument, desc)

/-- `fat16_stat`, with what it stores in `*stat`. -/
def fat16Stat (desc : FatFileDescriptor) : Int × Option FileStat :=
  if desc.item.type ≠ .file then (invalidArgument, none)
  else
    let readOnly := desc.item.item.attributes &&& 0x01 != 0
    (ok, some { flags := if readOnly then 0x01 else 0x00, size := desc.item.item.filesize })

/-- `fat16_close`. -/
def fat16Close (desc : FatFileDescriptor) : SysM Int := do
  fat16FreeItem desc.item
  Sys.free desc.address
  return ok

/-! ## 10. Mounting -/

/-- Overwrite a disk. -/
def setDisk (disk : DiskRef) (f : Disk → Disk) : SysM Unit :=
  modify fun s => { s with disks := Function.update s.disks disk (f (s.disks disk)) }

/-- `fat16_init_private_data`. -/
def fat16InitPrivateData (disk : DiskRef) : SysM FatPrivate := do
  let d ← diskOf disk
  let address ← Sys.zalloc 92
  let fatReadStream ← diskStreamNew d.id
  let directoryStream ← diskStreamNew d.id
  let clusterReadStream ← diskStreamNew d.id
  return { address, header := ⟨0, 0, 0, 0, 0, 0, 0⟩, rootDirectory := ⟨0, [], 0, 0, 0⟩,
           clusterReadStream, fatReadStream, directoryStream }

/-- The items that are stored from `p` on. -/
def readItems (m : Mem) (p count : Nat) : List FatDirectoryItem :=
  (List.range count).map fun i => slice m (p + 32 * i) 32

/-- `fat16_get_root_directory`, with the directory it stores in the private data. -/
def fat16GetRootDirectory (disk : DiskRef) (fatPrivate : FatPrivate) :
    SysM (Int × Option FatDirectory) := do
  let d ← diskOf disk
  let rootDirectorySector := fat16RootDirectorySector fatPrivate.header
  let rootDirectoryEntries := fatPrivate.header.rootDirEntries
  let rootDirectorySize := rootDirectoryEntries * 32
  let totalItems ← fat16GetTotalItemsForDirectory disk rootDirectorySector
  if totalItems < 0 then return (invalidArgument, none)
  else
    let dir ← Sys.zalloc rootDirectorySize
    if dir = 0 then return (heapMemoryNotMemoryLeft, none)
    else
      let stream := fatPrivate.directoryStream
      let res ← diskStreamSeek stream (fat16SectorToAbsolutePos d rootDirectorySector)
      if res ≠ ok then return (diskFailSetStreamPos, none)
      else
        let res ← diskStreamRead stream dir rootDirectorySize
        if res ≠ ok then return (diskFailToReadStream, none)
        else
          let s ← get
          return (ok, some {
            item := dir
            loaded := readItems s.arena.mem dir rootDirectoryEntries
            total := totalItems.toNat
            sectorPos := rootDirectorySector
            endingSectorPos := rootDirectorySector + rootDirectorySize / d.sectorSize })

/-- `fat16_reset_private_disk_streams`. -/
def fat16ResetPrivateDiskStreams (fatPrivate : FatPrivate) : SysM Unit := do
  diskStreamReset fatPrivate.fatReadStream
  diskStreamReset fatPrivate.directoryStream
  diskStreamReset fatPrivate.clusterReadStream

/-- `fat16_resolve` up to the label `fin`: the private data, and the result. -/
def fat16ResolveMount (disk : DiskRef) (stream : Nat) (fatPrivate : FatPrivate) :
    SysM (FatPrivate × Int) := do
  if stream = 0 then return (fatPrivate, systemFail)
  else
    let res ← diskStreamRead stream fatPrivate.address 62
    if res ≠ ok then return (fatPrivate, systemFail)
    else
      let s ← get
      let fatPrivate := { fatPrivate with header := FatHeader.read s.arena.mem fatPrivate.address }
      setDisk disk fun d => { d with fsPrivate := some fatPrivate }
      if fatPrivate.header.bootSignature ≠ 41 then return (fatPrivate, wrongFilesystem)
      else
        let (res, rootDirectory) ← fat16GetRootDirectory disk fatPrivate
        match rootDirectory with
        | some rootDirectory =>
          let fatPrivate := { fatPrivate with rootDirectory }
          setDisk disk fun d => { d with fsPrivate := some fatPrivate }
          return (fatPrivate, if res ≠ ok then systemFail else 0)
        | none => return (fatPrivate, systemFail)

/-- `fat16_resolve`.  When it fails, the private data are freed before their streams are reset. -/
def fat16Resolve (disk : DiskRef) : SysM Int := do
  let fatPrivate ← fat16InitPrivateData disk
  setDisk disk fun d => { d with fsPrivate := some fatPrivate, fs := some .fat16 }
  let d ← diskOf disk
  let stream ← diskStreamNew d.id
  let (fatPrivate, result) ← fat16ResolveMount disk stream fatPrivate
  if stream ≠ 0 then diskStreamClose stream
  if result < 0 then
    Sys.free fatPrivate.address
    setDisk disk fun d => { d with fsPrivate := none, fs := none }
    throw .fault
  else
    fat16ResetPrivateDiskStreams fatPrivate
    return result

end KokoOs
