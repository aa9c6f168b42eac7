/-
# Constants of the kernel, and the ways a call does not return

The constants of `config.h`, `errors.h` and `memory.h` that the modelled code reads, under the
source's names.  A C `int` status is an `Int`; sizes, addresses and other unsigned words are
`Nat`, with the wrap-around written out where the code can reach it.

A call of the kernel that does not return has a reason (`Halt`), and the reasons are kept apart.  The
kernel that panics has noticed something; the one that hangs has not; and an access that no object of
the model answers for is a fault, about which nothing is said.  A theorem that allows a call to stop
names the reasons that it allows.
-/
import Mathlib.Tactic.Common

namespace KokoOs

/-! ## 1. `config.h` -/

abbrev kernelMaxPathSize : Nat := 256
abbrev kernelMaxHeapMemory : Nat := 1024 * 1024 * 100
abbrev kernelHeapBlockSize : Nat := 4096
abbrev kernelDefaultDiskSectorSize : Nat := 512
abbrev kernelMaxFilesystems : Nat := 10
abbrev kernelMaxFileDescriptors : Nat := 1024

/-! ## 2. `memory.h` -/

abbrev memoryHeapStartAddress : Nat := 0x01000000

/-! ## 3. Status codes: `OK` and `errors.h` -/

abbrev ok : Int := 0
abbrev heapMemoryNotAligned : Int := -301
abbrev heapTableLowBytesAvailable : Int := -302
abbrev heapAvailableMemoryLessThanBlock : Int := -303
abbrev heapMemoryNotMemoryLeft : Int := -304
abbrev pagingMemoryNotAligned : Int := -401
abbrev systemFail : Int := -49
abbrev invalidArgument : Int := -50
abbrev notImplemented : Int := -255
abbrev wrongFilesystem : Int := -200
abbrev diskInvalidDisk : Int := -101
abbrev diskFailToReadStream : Int := -201
abbrev diskFailSetStreamPos : Int := -202
abbrev diskFailToWriteStream : Int := -203
abbrev fsCannotGetFile : Int := -502
abbrev fsInvalidFileDescriptor : Int := -503

/-! ## 4. Calls that do not return -/

/-- Why a call of the kernel does not return.

* `panic`: `panic(message)` printed its message and loops;
* `hang`: a loop of the code never ends (a device that never gets ready, a search whose
  condition is never met);
* `fault`: the code went through a pointer that designates no live object, which C leaves
  undefined: what the machine does next depends on memory the model does not know. -/
inductive Halt where
  | panic (message : String)
  | hang
  | fault
  deriving DecidableEq, Repr

end KokoOs
