/-
# The state of the kernel, and the disk (`lib/io/disk.c`)

Everything above the heap works on `Sys`: the kernel heap with the memory it manages, the ATA
device, the `Disk` objects and the `Disk_Stream` objects.

Bytes live in memory: strings, path nodes and every buffer are read and written there, byte by
byte.  Structs that the code only ever reaches by field -- a `Disk`, a `Disk_Stream`, the private
data of the file system -- are kept as records, next to the address they were allocated at, so
that allocating and freeing them has its effect on the heap.

The device answers whole sectors (`diskReadSector`, `diskWriteSector`).  The code waits in a loop for it
to get ready, so a sector that the device does not have is a loop that never ends; the ports and the
order in which they are used are the subject of `DiskPorts.lean`, which shows that these two
functions are what the port accesses come to.
-/
import KokoOs.Heap

namespace KokoOs

open Bytes

/-! ## 1. The objects -/

/-- A `Disk*`.  `disk_get` only ever hands out `&primary_disk`. -/
abbrev DiskRef := Nat

abbrev primaryDisk : DiskRef := 0

/-- A `Disk_Stream`. -/
structure DiskStream where
  pos : Nat
  disk : DiskRef

/-- The fields of `Fat_Header` that the code reads. -/
structure FatHeader where
  sectorsPerCluster : Nat
  reservedSectors : Nat
  fatCopies : Nat
  rootDirEntries : Nat
  sectorsPerFat : Nat
  sectorsBig : Nat
  bootSignature : Nat
  deriving DecidableEq

/-- A `Fat_Directory_Item`: 32 packed bytes, read by offset. -/
abbrev FatDirectoryItem := List UInt8

/-- A `Fat_Directory`: the array it points to, with the items that were loaded into it. -/
structure FatDirectory where
  item : Nat
  loaded : List FatDirectoryItem
  total : Nat
  sectorPos : Nat
  endingSectorPos : Nat

/-- `Fat_Private`.  The streams are given by their addresses. -/
structure FatPrivate where
  address : Nat
  header : FatHeader
  rootDirectory : FatDirectory
  clusterReadStream : Nat
  fatReadStream : Nat
  directoryStream : Nat

/-- A `File_System*`: FAT16 is the only one there is. -/
inductive FileSystemRef where
  | fat16
  deriving DecidableEq

/-- A `Disk`. -/
structure Disk where
  id : Nat
  type : Nat
  sectorSize : Nat
  fs : Option FileSystemRef
  fsPrivate : Option FatPrivate

/-- The ATA device: how many sectors it has, and their bytes. -/
structure Ata where
  sectors : Nat
  image : Mem

/-- The state of the kernel below the table of open files. -/
structure Sys where
  arena : Arena
  ata : Ata
  disks : DiskRef → Disk
  streams : Nat → DiskStream

/-- Programs of the kernel. -/
abbrev SysM := EStateM Halt Sys

/-! ## 2. The heap of the kernel -/

/-- A program of the heap, run on the kernel's. -/
def onArena {α : Type} (m : HeapM α) : SysM α :=
  Prog.zoom Sys.arena (fun s a => { s with arena := a }) m

def Sys.malloc (amountOfBytes : Nat) : SysM Nat := onArena (heapMalloc amountOfBytes)

def Sys.zalloc (amountOfBytes : Nat) : SysM Nat := onArena (KokoOs.zalloc amountOfBytes)

def Sys.free (address : Nat) : SysM Unit := onArena (heapFree address)

/-- Rewrite the memory. -/
def storeMem (f : Mem → Mem) : SysM Unit :=
  modify fun s => { s with arena := { s.arena with mem := f s.arena.mem } }

/-- Where the locals of a function that are passed by address are: under the top of the stack,
which `kernel.asm` puts at 2 MiB, far below the heap. -/
abbrev stackBuffer : Nat := 0x001ff000

/-! ## 3. Sectors -/

/-- `disk_read_sector`: the device transfers the sectors it is asked for, and never gets ready
for one it does not have. -/
def diskReadSector (buffer lba totalSectorsToRead : Nat) : SysM Int := do
  if totalSectorsToRead = 0 then return invalidArgument
  else
    let s ← get
    if s.ata.sectors < lba + totalSectorsToRead then throw .hang
    else
      storeMem fun m => blit m buffer (slice s.ata.image (512 * lba) (512 * totalSectorsToRead))
      return ok

/-- `disk_write_sector`. -/
def diskWriteSector (buffer lba totalSectorsToWrite : Nat) : SysM Int := do
  if totalSectorsToWrite = 0 then return invalidArgument
  else
    let s ← get
    if s.ata.sectors < lba + totalSectorsToWrite then throw .hang
    else
      let image := blit s.ata.image (512 * lba) (slice s.arena.mem buffer (512 * totalSectorsToWrite))
      set { s with ata := { s.ata with image } }
      return ok

/-- `disk_get`. -/
def diskGet (type : Nat) : Option DiskRef := if type ≠ 0 then none else some primaryDisk

/-- `disk_read_block`; the number of sectors is passed as a `uint8_t`. -/
def diskReadBlock (disk : DiskRef) (buffer lba totalSectorsToRead : Nat) : SysM Int := do
  if disk ≠ primaryDisk then return diskInvalidDisk
  else diskReadSector buffer lba (totalSectorsToRead % 256)

/-- `disk_write_block`. -/
def diskWriteBlock (disk : DiskRef) (buffer lba totalSectorsToWrite : Nat) : SysM Int := do
  if disk ≠ primaryDisk then return diskInvalidDisk
  else diskWriteSector buffer lba (totalSectorsToWrite % 256)

end KokoOs
