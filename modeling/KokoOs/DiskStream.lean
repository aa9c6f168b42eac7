/-
# Disk streams (`lib/fs/disk_stream.c`)

A stream is a byte position on a disk.  Reading and writing go through a local buffer of whole
sectors; how many is computed from the length of the request alone
(`disk_stream_get_affected_sectors`), while the bytes start at the in-sector offset of the
position.

So the copying loops (`copyFromLocal`, `copyToLocal`) may use indices that are not in the local buffer.
They are transcribed as loops over memory, where such an index is an address like any other; what is
found there depends on the heap.  The number of sectors goes to `disk_read_block` and `disk_write_block`
as it is, and is cut off to eight bits there.
-/
import KokoOs.Sys

namespace KokoOs

open Bytes

/-- Overwrite a stream. -/
def setStream (stream : Nat) (f : DiskStream → DiskStream) : SysM Unit :=
  modify fun s => { s with streams := Function.update s.streams stream (f (s.streams stream)) }

/-- `disk_stream_new`: the address of the new stream, or NULL. -/
def diskStreamNew (id : Nat) : SysM Nat :=
  match diskGet id with
  | none => pure 0
  | some disk => do
    let stream ← Sys.malloc 8
    setStream stream fun _ => { pos := 0, disk }
    return stream

def diskStreamGetAffectedSectors (totalBytes : Nat) : Nat :=
  let leftoverSector := if totalBytes % kernelDefaultDiskSectorSize ≠ 0 then 1 else 0
  totalBytes / kernelDefaultDiskSectorSize + leftoverSector

def diskStreamSeek (stream pos : Nat) : SysM Int := do
  setStream stream fun st => { st with pos }
  return ok

def diskStreamSeekBySector (stream sector : Nat) : SysM Int := do
  let s ← get
  let sectorSize := (s.disks (s.streams stream).disk).sectorSize
  setStream stream fun st => { st with pos := sector * sectorSize % 2 ^ 32 }
  return ok

/-- The size the local buffer is allocated with. -/
def localBufferSize (totalBytes : Nat) : Nat :=
  kernelDefaultDiskSectorSize * diskStreamGetAffectedSectors totalBytes % 2 ^ 32

/-- The index of the local buffer that turn `i` of the copying loops uses, at position `pos`. -/
def localIndex (pos i : Nat) : Nat := pos % kernelDefaultDiskSectorSize + i

/-- The loop of `disk_stream_read`, from byte `i` on: `temp_buffer[i] = local_buffer[offset + i]`. -/
def copyFromLocal (buffer localBuffer pos : Nat) : Nat → Nat → Mem → Mem
  | 0, _, m => m
  | fuel + 1, i, m => copyFromLocal buffer localBuffer pos fuel (i + 1)
      (Function.update m (buffer + i) (m (localBuffer + localIndex pos i)))

/-- The loop of `disk_stream_write`, from byte `i` on: `local_buffer[offset + i] = temp_buffer[i]`. -/
def copyToLocal (buffer localBuffer pos : Nat) : Nat → Nat → Mem → Mem
  | 0, _, m => m
  | fuel + 1, i, m => copyToLocal buffer localBuffer pos fuel (i + 1)
      (Function.update m (localBuffer + localIndex pos i) (m (buffer + i)))

/-- `disk_stream_read`. -/
def diskStreamRead (stream buffer totalBytes : Nat) : SysM Int := do
  if totalBytes = 0 then return invalidArgument
  else
    let s ← get
    let st := s.streams stream
    let sectorsRequiredToRead := diskStreamGetAffectedSectors totalBytes
    let sector := st.pos / kernelDefaultDiskSectorSize
    let localBuffer ← Sys.malloc (localBufferSize totalBytes)
    let res ← diskReadBlock st.disk localBuffer sector sectorsRequiredToRead
    if res ≠ ok then
      Sys.free localBuffer
      return invalidArgument
    else
      storeMem (copyFromLocal buffer localBuffer st.pos totalBytes 0)
      setStream stream fun st => { st with pos := (st.pos + totalBytes) % 2 ^ 32 }
      Sys.free localBuffer
      return ok

/-- `disk_stream_write`. -/
def diskStreamWrite (stream buffer totalBytes : Nat) : SysM Int := do
  if totalBytes = 0 then return invalidArgument
  else
    let s ← get
    let st := s.streams stream
    let totalSectors := diskStreamGetAffectedSectors totalBytes
    let sector := st.pos / kernelDefaultDiskSectorSize
    let localBuffer ← Sys.malloc (localBufferSize totalBytes)
    let res ← diskReadBlock st.disk localBuffer sector totalSectors
    if res ≠ ok then
      Sys.free localBuffer
      return invalidArgument
    else
      storeMem (copyToLocal buffer localBuffer st.pos totalBytes 0)
      let res ← diskWriteBlock st.disk localBuffer sector totalSectors
      if res ≠ ok then
        Sys.free localBuffer
        return diskFailToWriteStream
      else
        setStream stream fun st => { st with pos := (st.pos + totalBytes) % 2 ^ 32 }
        Sys.free localBuffer
        return ok

/-- `disk_stream_close`. -/
def diskStreamClose (stream : Nat) : SysM Unit := Sys.free stream

/-- `disk_stream_reset`. -/
def diskStreamReset (stream : Nat) : SysM Unit := setStream stream fun st => { st with pos := 0 }

end KokoOs
