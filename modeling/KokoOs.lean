import KokoOs.Lib.Prog
import KokoOs.Lib.Run
import KokoOs.Lib.Bytes
import KokoOs.Config
import KokoOs.Heap
import KokoOs.HeapSpec
import KokoOs.HeapInv
import KokoOs.HeapFree
import KokoOs.HeapBlock
import KokoOs.Paging
import KokoOs.PagingMap
import KokoOs.DiskStream
import KokoOs.KernelHeap
import KokoOs.DiskStreamSpec
import KokoOs.DiskStreamRefine
import KokoOs.KernelObject
import KokoOs.Path
import KokoOs.StrSpec
import KokoOs.PathSpec
import KokoOs.PathParse
import KokoOs.PathNames
import KokoOs.Fat16
import KokoOs.File
import KokoOs.FileSpec
import KokoOs.SysSpec
import KokoOs.Fat16Frame
import KokoOs.Fat16Mount
import KokoOs.FileBlank
import KokoOs.FileAtomic
import KokoOs.FileTable
import KokoOs.Fat16Write
import KokoOs.Fat16Search
import KokoOs.Fat16MountFail
import KokoOs.FileAlias
import KokoOs.FileWrite
import KokoOs.Fat16Still
import KokoOs.FileCoherent
import KokoOs.Fat16Chain
import KokoOs.Fat16Read
import KokoOs.Fat16ClusterWise
import KokoOs.FileContent
import KokoOs.FileRead
import KokoOs.FileIndependent
import KokoOs.FileReadContent
import KokoOs.FileReopen
import KokoOs.Fat16Volume
import KokoOs.FileObjects
import KokoOs.FileApart
import KokoOs.Fat16Name
import KokoOs.Fat16Seek
import KokoOs.HeapFirstFit
import KokoOs.KernelOwn
import KokoOs.Lib.Links
import KokoOs.PathFree
import KokoOs.Fat16Path
import KokoOs.Fat16Geometry
import KokoOs.Fat16Live
import KokoOs.Fat16Slot
import KokoOs.Fat16Subdirectory
import KokoOs.HeapFreeSafe
import KokoOs.HeapNull
import KokoOs.HeapZalloc
import KokoOs.StrCompare
import KokoOs.PathValid
import KokoOs.Lib.Decimal
import KokoOs.StrNumber
import KokoOs.StrRoundTrip
import KokoOs.DiskStreamCount
import KokoOs.Lib.Grid
import KokoOs.Terminal
import KokoOs.TerminalLayout
import KokoOs.Lib.Ports
import KokoOs.DiskPorts
import KokoOs.Lib.I386
import KokoOs.InterruptTable
import KokoOs.Interrupts
import KokoOs.Routines
import KokoOs.BootLoader
import KokoOs.FileRuns
import KokoOs.FileDisk
import KokoOs.PagingRuns
import KokoOs.Kernel
import KokoOs.TerminalSession
import KokoOs.FileLeaks
import KokoOs.FileFound
