/-
# Open files (`lib/fs/file.c`)

The table of file descriptors, over any file system: a `FileSystem δ` is the record of function
pointers of a `File_System`, where `δ` stands for what the private data of a descriptor point to.
An operation that changes these data hands them back.

`fs_open` parses the path, asks the file system of the disk, and makes a descriptor in the first free slot;
`fsOpenOn` is what comes behind the checks.  Three habits of this file are behind what is proved of it:
the parsed path is never freed, the results of reads and writes are dropped, and descriptors are
numbered from 1 while the test for a valid index is made as if they were numbered from 0.
-/
import KokoOs.Fat16
import KokoOs.Path

namespace KokoOs

open Bytes

/-! ## 1. The data -/

/-- A `File_System`.  `openFile` returns the private data, or a negative code; `addressOf` is where
private data are, for the test `IS_ERROR` makes on the pointer. -/
structure FileSystem (δ : Type) where
  resolve : DiskRef → SysM Int
  openFile : DiskRef → Nat → FileMode → SysM (Except Int δ)
  read : DiskRef → Nat → δ → Nat → Nat → SysM (Int × δ)
  seek : δ → Nat → SeekMode → SysM (Int × δ)
  stat : DiskRef → δ → SysM (Int × Option FileStat)
  write : DiskRef → Nat → δ → Nat → SysM (Int × δ)
  close : δ → SysM Int
  addressOf : δ → Nat

/-- `fat16_file_system`. -/
def fat16FileSystem : FileSystem FatFileDescriptor where
  resolve := fat16Resolve
  openFile := fat16Open
  read disk out desc size nmemb := do
    let res ← fat16Read disk out desc size nmemb
    return (res, desc)
  seek desc offset mode := return fat16Seek desc offset mode
  stat _ desc := return fat16Stat desc
  write := fat16Write
  close := fat16Close
  addressOf desc := desc.address

/-- The file system a reference stands for. -/
def fileSystemOf : FileSystemRef → FileSystem FatFileDescriptor
  | .fat16 => fat16FileSystem

/-- A `File_Descriptor`. -/
structure FileDescriptor (δ : Type) where
  address : Nat
  index : Nat
  fs : FileSystemRef
  disk : DiskRef
  privateData : δ

/-- The state of the kernel with its tables of file systems and open files. -/
structure FileState (δ : Type) where
  sys : Sys
  fileSystems : Nat → Option FileSystemRef
  fileDescriptors : Nat → Option (FileDescriptor δ)

/-- Programs of the file layer. -/
abbrev FileM (δ : Type) := EStateM Halt (FileState δ)

section

variable {δ : Type}

/-- A program of the kernel, run below the table of open files. -/
def onSys {α : Type} (m : SysM α) : FileM δ α :=
  Prog.zoom FileState.sys (fun f s => { f with sys := s }) m

/-- Overwrite an entry of the table. -/
def setFileDescriptor (i : Nat) (desc : Option (FileDescriptor δ)) : FileM δ Unit :=
  modify fun f => { f with fileDescriptors := Function.update f.fileDescriptors i desc }

/-! ## 2. The tables -/

/-- The search of `fs_get_free_file_system`, from slot `i` on. -/
def fsFreeFileSystemLoop (table : Nat → Option FileSystemRef) : Nat → Nat → Int
  | 0, _ => -1
  | fuel + 1, i => if (table i).isNone then i else fsFreeFileSystemLoop table fuel (i + 1)

/-- `fs_insert_filesystem`. -/
def fsInsertFilesystem (fs : FileSystemRef) : FileM δ Unit := do
  let f ← get
  let slot := fsFreeFileSystemLoop f.fileSystems kernelMaxFilesystems 0
  if slot < 0 then throw (.panic "No free slot for file system available!")
  else set { f with fileSystems := Function.update f.fileSystems slot.toNat (some fs) }

/-- `fs_init`. -/
def fsInit : FileM δ Unit := do
  modify fun f => { f with fileSystems := fun _ => none, fileDescriptors := fun _ => none }
  fsInsertFilesystem .fat16

/-- The search of `fs_new_file_descriptor`, from slot `i` on. -/
def fsFreeSlotLoop (table : Nat → Option (FileDescriptor δ)) : Nat → Nat → Option Nat
  | 0, _ => none
  | fuel + 1, i => if (table i).isSome then fsFreeSlotLoop table fuel (i + 1) else some i

/-- `fs_free_file_descriptor`. -/
def fsFreeFileDescriptor (fd : Nat) : FileM δ Int := do
  if fd ≤ 0 then return fsInvalidFileDescriptor
  else
    let f ← get
    match f.fileDescriptors (fd - 1) with
    | none => return invalidArgument
    | some desc =>
      onSys (Sys.free desc.address)
      setFileDescriptor (fd - 1) none
      return ok

/-- `fs_find_file_descriptor`. -/
def fsFindFileDescriptor (f : FileState δ) (index : Nat) : Option (FileDescriptor δ) :=
  if index ≤ 0 ∨ index ≥ kernelMaxFileDescriptors then none else f.fileDescriptors (index - 1)

/-- `fs_new_file_descriptor`, with the values `fs_open` assigns to the new descriptor. -/
def fsNewFileDescriptor (fs : FileSystemRef) (disk : DiskRef) (privateData : δ) :
    FileM δ (Option (FileDescriptor δ)) := do
  let f ← get
  match fsFreeSlotLoop f.fileDescriptors kernelMaxFileDescriptors 0 with
  | none => return none
  | some i =>
    let address ← onSys (Sys.zalloc 16)
    let desc := { address, index := i + 1, fs, disk, privateData }
    setFileDescriptor i (some desc)
    return some desc

/-! ## 3. The calls -/

variable (impl : FileSystemRef → FileSystem δ)

/-- The loop of `fs_resolve`, from slot `i` on. -/
def fsResolveLoop (disk : DiskRef) : Nat → Nat → FileM δ (Option FileSystemRef)
  | 0, _ => return none
  | fuel + 1, i => do
    let f ← get
    match f.fileSystems i with
    | none => fsResolveLoop disk fuel (i + 1)
    | some fs =>
      let res ← onSys ((impl fs).resolve disk)
      if res = ok then return some fs else fsResolveLoop disk fuel (i + 1)

/-- `fs_resolve`. -/
def fsResolve (disk : DiskRef) : FileM δ (Option FileSystemRef) :=
  fsResolveLoop impl disk kernelMaxFilesystems 0

/-- `fs_open` behind the checks of the path and the disk. -/
def fsOpenOn (disk : DiskRef) (fs : FileSystemRef) (part : Nat) (mode : FileMode) : FileM δ Nat := do
  let fileData ← onSys ((impl fs).openFile disk part mode)
  match fileData with
  | .error _ => return 0
  | .ok fileData =>
    if (impl fs).addressOf fileData ≥ 2 ^ 31 then return 0
    else
      let fd ← fsNewFileDescriptor fs disk fileData
      match fd with
      | none => return 0
      | some fd => return fd.index

/-- `fs_open`.  The parsed path is never freed. -/
def fsOpen (filename : Nat) (mode : FileMode) : FileM δ Nat := do
  let root ← onSys (onArena (pathParserParsePath filename))
  let f ← get
  let mem := f.sys.arena.mem
  if root = 0 then return 0
  else if u32 mem (root + 4) = 0 then return 0
  else if u32 mem (u32 mem (root + 4)) = 0 then return 0
  else
    match diskGet (mem root).toNat with
    | none => return 0
    | some disk =>
      match (f.sys.disks disk).fs with
      | none => return 0
      | some fs => fsOpenOn impl disk fs (u32 mem (root + 4)) mode

/-- The private data behind a descriptor have changed. -/
def setPrivateData (fd : Nat) (desc : FileDescriptor δ) (privateData : δ) : FileM δ Unit :=
  setFileDescriptor (fd - 1) (some { desc with privateData })

/-- `fs_read`.  The result of the file system is dropped. -/
def fsRead (ptr fd size nmemb : Nat) : FileM δ Int := do
  if size = 0 ∨ nmemb = 0 ∨ fd ≤ 0 then return invalidArgument
  else
    let f ← get
    match fsFindFileDescriptor f fd with
    | none => return fsInvalidFileDescriptor
    | some descriptor =>
      let (_, data) ← onSys
        ((impl descriptor.fs).read descriptor.disk ptr descriptor.privateData size nmemb)
      setPrivateData fd descriptor data
      return ok

/-- `fs_write`.  The result of the file system is dropped. -/
def fsWrite (input fd size : Nat) : FileM δ Int := do
  if size = 0 ∨ fd ≤ 0 then return invalidArgument
  else
    let f ← get
    match fsFindFileDescriptor f fd with
    | none => return fsInvalidFileDescriptor
    | some descriptor =>
      let (_, data) ← onSys
        ((impl descriptor.fs).write descriptor.disk input descriptor.privateData size)
      setPrivateData fd descriptor data
      return ok

/-- `descriptor->disk->fs`. -/
def diskFs (f : FileState δ) (descriptor : FileDescriptor δ) : SysM FileSystemRef :=
  orFault (f.sys.disks descriptor.disk).fs

/-- `fs_seek`. -/
def fsSeek (fd offset : Nat) (mode : SeekMode) : FileM δ Int := do
  let f ← get
  match fsFindFileDescriptor f fd with
  | none => return fsInvalidFileDescriptor
  | some descriptor =>
    let fs ← onSys (diskFs f descriptor)
    let (res, data) ← onSys ((impl fs).seek descriptor.privateData offset mode)
    setPrivateData fd descriptor data
    return res

/-- `fs_stat`, with what it stores in `*stat`. -/
def fsStat (fd : Nat) : FileM δ (Int × Option FileStat) := do
  let f ← get
  match fsFindFileDescriptor f fd with
  | none => return (fsInvalidFileDescriptor, none)
  | some descriptor =>
    let fs ← onSys (diskFs f descriptor)
    onSys ((impl fs).stat descriptor.disk descriptor.privateData)

/-- `fs_close`. -/
def fsClose (fd : Nat) : FileM δ Int := do
  let f ← get
  match fsFindFileDescriptor f fd with
  | none => return fsInvalidFileDescriptor
  | some descriptor =>
    let fs ← onSys (diskFs f descriptor)
    let res ← onSys ((impl fs).close descriptor.privateData)
    if res ≠ ok then return systemFail
    else
      let _ ← fsFreeFileDescriptor fd
      return ok

end

end KokoOs
