import Xinim.Core
import Xinim.Data.AList
import Xinim.Graph.Acyclic
import Xinim.Graph.Search
import Xinim.Lattice.WaitGraph
import Xinim.Sched.Scheduler
import Xinim.Svc.ServiceManager
import Xinim.Sync.LockManager
import Xinim.System.Kernel
import Xinim.System.Dependencies
import Xinim.System.RunQueue
import Xinim.System.Locks
import Xinim.Interval.Extent
import Xinim.Mm.Alloc
import Xinim.Mm.Partition
import Xinim.Mm.Pmm
import Xinim.Lattice.Ipc
import Xinim.Lattice.Delivery
import Xinim.Lattice.Blocking
import Xinim.Data.Intrusive
import Xinim.Data.Chains
import Xinim.Data.Ring
import Xinim.Proc.Pcb
import Xinim.Proc.Signal
import Xinim.Proc.Sched
import Xinim.Proc.Pipe
import Xinim.Proc.Group
import Xinim.Proc.Lifecycle
import Xinim.Svc.Restart
import Xinim.System.Restart
import Xinim.Vfs.BufferCache
import Xinim.MemMgr.Server
import Xinim.Data.Bytes
import Xinim.Vfs.Ramfs
import Xinim.Vfs.Server
import Xinim.Fs.Cache
import Xinim.Fs.Map
import Xinim.Fastpath.Wormhole
import Xinim.Data.Bitmap
import Xinim.Ext2.Alloc
import Xinim.Ext2.Node
import Xinim.Data.Pool
import Xinim.Ext2.Counted
import Xinim.Ext2.FreeSet
import Xinim.Proc.FdTable
import Xinim.Ext2.Mount
import Xinim.Mm.PmmCounters
import Xinim.Data.Word
import Xinim.Fs.Super
import Xinim.Ext2.Dir
import Xinim.Fs.Path
import Xinim.Fs.Dir
import Xinim.Fs.Zone
import Xinim.Data.Butterfly
import Xinim.Crypto.Kyber
import Xinim.Cmd.Sort
import Xinim.Cmd.SortMerge
import Xinim.Data.Segments
import Xinim.Vfs.Normalize
import Xinim.Kernel.ExecStack
import Xinim.Kernel.Elf
import Xinim.Kernel.Uaccess
import Xinim.Proc.FileOps
import Xinim.Proc.FileSafety
import Xinim.Proc.FileRuns
import Xinim.Proc.SignalCalls
import Xinim.Proc.SignalFrames
