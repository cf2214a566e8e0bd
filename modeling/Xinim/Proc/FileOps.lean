import Xinim.Kernel.Uaccess
import Xinim.Proc.Lifecycle
import Xinim.Proc.Pipe
import Xinim.Proc.FdTable

/-! The file system calls of the x86_64 kernel: `sys_open`, `sys_read`,
`sys_close` and `sys_lseek` (kernel/syscalls/file_ops.cpp), `sys_write`
(kernel/syscalls/basic.cpp), `sys_dup`, `sys_dup2`, `sys_pipe` and `sys_fcntl`
(kernel/syscalls/fd_advanced.cpp), over the descriptor tables, the pipes and the
console-only VFS of kernel/vfs_interface.cpp, with `sys_fork` copying the
caller's table. Pointers are numbers, 0 for `nullptr`; `new Pipe()` hands out
the next unused address and never fails. A call that blocks in a pipe's wait
loop, or turns in the loop of `F_DUPFD`, stays inside the kernel until its
process runs again. -/

namespace Xinim.Proc

open Xinim.Kernel (UserMem isUserAddress copyFromUser copyToUser copyStringFromUser eFault pathMax ssize)

def eNoent : ℤ := 2

def eExist : ℤ := 17

def eSpipe : ℤ := 29

namespace FileFlags

def rdonly : ℕ := 0x0000

def wronly : ℕ := 0x0001

def accmode : ℕ := 0x0003

def creat : ℕ := 0x0040

def excl : ℕ := 0x0080

def trunc : ℕ := 0x0200

def append : ℕ := 0x0400

def cloexec : ℕ := 0x80000

end FileFlags

/-! ### The VFS of this stage: `/dev/console` only -/

def consoleInode : ℕ := 1

def consolePath : List UInt8 := "/dev/console".toList.map fun c => UInt8.ofNat c.toNat

def vfsLookup (pathname : List UInt8) : ℕ := if pathname = consolePath then consoleInode else 0

/-- `vfs_create`: no file can be created yet. -/
def vfsCreate : ℕ := 0

/-- `vfs_is_device`; the console is the one inode there is. -/
def vfsIsDevice (inode : ℕ) : Bool := inode = consoleInode

def vfsGetSize (_inode : ℕ) : ℕ := 0

/-- `vfs_read`: what it returns, and the bytes it put in the buffer. The
console has no input yet. -/
def vfsRead (inode : ℕ) : ℤ × List UInt8 :=
  if inode = 0 then (-eInval, [])
  else if !vfsIsDevice inode then (-eNoSys, [])
  else (0, [])

def vfsWrite (inode : ℕ) (data console : List UInt8) : List UInt8 × ℤ :=
  if inode = 0 then (console, -eInval)
  else if !vfsIsDevice inode then (console, -eNoSys)
  else (console ++ data, data.length)

def toInt64 (n : ℤ) : ℤ := (n + 2 ^ 63) % 2 ^ 64 - 2 ^ 63

/-! ### The state of the calls -/

/-- A call still inside the kernel: blocked in the wait loop of a pipe's `read`,
with the user buffer `sys_read` copies to, or of its `write`, with the bytes
`sys_write` copied in; or turning in the loop of `F_DUPFD` from `newfd`. -/
inductive Waiting
  | read (pipe : ℕ) (buf : UInt64) (count : ℕ)
  | write (pipe : ℕ) (data : List UInt8)
  | dupfd (fd newfd arg : ℤ)
  deriving DecidableEq

structure Sys where
  kernel : Kernel
  fdTable : Pid → FileDescriptorTable
  pipes : ℕ → Pipe
  /-- Where the next `new Pipe()` lands. -/
  nextPipe : ℕ
  nextPipe_pos : 0 < nextPipe
  mem : UserMem
  /-- The bytes written to the serial console. -/
  console : List UInt8
  waiting : Pid → Option Waiting

inductive Transfer
  | none
  | wrote (pipe : ℕ) (bytes : List UInt8)
  | read (pipe : ℕ) (bytes : List UInt8)

/-- The state after a call, what it returned (nothing while it is still inside
the kernel), and what it moved. -/
structure Outcome where
  sys : Sys
  result : Option ℤ
  moved : Transfer

namespace Sys

variable (s : Sys)

def ret (r : ℤ) : Outcome := ⟨s, some r, .none⟩

def setTable (p : Pid) (t : FileDescriptorTable) : Sys := { s with fdTable := Function.update s.fdTable p t }

def setWaiting (p : Pid) (w : Option Waiting) : Sys := { s with waiting := Function.update s.waiting p w }

def pipeCall {α : Type} (a : ℕ) (call : PipeCall α) : Sys :=
  { s with kernel := call.kernel, pipes := Function.update s.pipes a call.pipe }

/-- The pipe branch of `sys_read` from `pipe->read` on; a reader back from the
`schedule()` of the wait loop runs it again. -/
def pipeRead (cur : Pid) (a : ℕ) (buf : UInt64) (count : ℕ) : Outcome :=
  let call := (s.pipes a).read s.kernel count
  let s := s.pipeCall a call
  match call.result with
  | none => ⟨s.setWaiting cur (some (.read a buf count)), none, .none⟩
  | some (bytesRead, out) =>
    if bytesRead < 0 then s.ret bytesRead
    else if bytesRead > 0 then
      match copyToUser s.mem buf out with
      | .error r => s.ret r
      -- what the reader finds in its buffer after the copy
      | .ok mem => ⟨{ s with mem }, some bytesRead, .read a ((List.range out.length).map fun i => mem (buf.toNat + i))⟩
    else s.ret bytesRead

def pipeWrite (cur : Pid) (a : ℕ) (data : List UInt8) (call : PipeCall ℤ) : Outcome :=
  let s := s.pipeCall a call
  match call.result with
  | none => ⟨s.setWaiting cur (some (.write a data)), none, .none⟩
  | some written => ⟨s, some written, .wrote a (data.take written.toNat)⟩

def sysRead (fd bufAddr count : UInt64) : Outcome :=
  match s.kernel.gCurrentProcess with
  | none => s.ret (-eSrch)
  | some cur =>
    if fd.toNat ≥ maxFdsPerProcess then s.ret (-eBadf)
    else
      match (s.fdTable cur).getFd fd.toNat with
      | none => s.ret (-eBadf)
      | some i =>
        let entry := (s.fdTable cur).fds i
        if entry.fileFlags &&& FileFlags.accmode = FileFlags.wronly then s.ret (-eBadf)
        else if !isUserAddress bufAddr count then s.ret (-eFault)
        else
          let count := min count.toNat 4096
          if entry.privateData ≠ 0 then s.pipeRead cur entry.privateData bufAddr count
          else
            let (bytesRead, out) := vfsRead entry.inode
            if bytesRead < 0 then s.ret bytesRead
            else
              let copied := if bytesRead > 0 then copyToUser s.mem bufAddr out else .ok s.mem
              match copied with
              | .error r => s.ret r
              | .ok mem =>
                let s := { s with mem }
                if !vfsIsDevice entry.inode then
                  (s.setTable cur ((s.fdTable cur).setEntry i
                    { entry with offset := (entry.offset + bytesRead.toNat) % 2 ^ 64 })).ret bytesRead
                else s.ret bytesRead

def sysWrite (fd bufAddr count : UInt64) : Outcome :=
  match s.kernel.gCurrentProcess with
  | none => s.ret (-eSrch)
  | some cur =>
    if fd.toNat ≥ maxFdsPerProcess then s.ret (-eBadf)
    else
      match (s.fdTable cur).getFd fd.toNat with
      | none => s.ret (-eBadf)
      | some i =>
        let entry := (s.fdTable cur).fds i
        if entry.fileFlags &&& FileFlags.accmode = FileFlags.rdonly then s.ret (-eBadf)
        else if !isUserAddress bufAddr count then s.ret (-eFault)
        else
          let count := min count.toNat 4096
          match copyFromUser s.mem bufAddr (UInt64.ofNat count) with
          | .error r => s.ret r
          | .ok data =>
            if entry.privateData ≠ 0 then
              s.pipeWrite cur entry.privateData data ((s.pipes entry.privateData).write s.kernel data)
            else
              let (console, written) := vfsWrite entry.inode data s.console
              if written < 0 then s.ret written
              else
                let offset :=
                  if entry.fileFlags &&& FileFlags.append ≠ 0 then vfsGetSize entry.inode
                  else if !vfsIsDevice entry.inode then (entry.offset + written.toNat) % 2 ^ 64
                  else entry.offset
                ({ s with console }.setTable cur ((s.fdTable cur).setEntry i { entry with offset })).ret written

def sysOpen (pathnameAddr flags _mode : UInt64) : Outcome :=
  match s.kernel.gCurrentProcess with
  | none => s.ret (-eSrch)
  | some cur =>
    match copyStringFromUser s.mem pathnameAddr pathMax with
    | .error r => s.ret r
    | .ok pathname =>
      let flags := flags.toNat
      if flags &&& FileFlags.accmode > 2 then s.ret (-eInval)
      else
        let found := vfsLookup pathname
        let inode := if found = 0 ∧ flags &&& FileFlags.creat ≠ 0 then vfsCreate else found
        if inode = 0 then s.ret (-eNoent)
        else if flags &&& FileFlags.excl ≠ 0 ∧ flags &&& FileFlags.creat ≠ 0 then s.ret (-eExist)
        else
          let (t, fd) := (s.fdTable cur).allocateFd
          if fd < 0 then (s.setTable cur t).ret fd
          else
            match t.getFd fd with
            | none => (s.setTable cur t).ret (-Kernel.eIo)
            | some i =>
              -- the `vfs_truncate` of `O_TRUNC` fails, and its result is dropped
              let entry : FileDescriptor :=
                ⟨true, if flags &&& FileFlags.cloexec ≠ 0 then fdCloexec else 0, flags % 2 ^ 32, 0, inode, 0⟩
              (s.setTable cur (t.setEntry i entry)).ret fd

def sysClose (fd : UInt64) : Outcome :=
  match s.kernel.gCurrentProcess with
  | none => s.ret (-eSrch)
  | some cur =>
    if fd.toNat ≥ maxFdsPerProcess then s.ret (-eBadf)
    else
      match (s.fdTable cur).getFd fd.toNat with
      | none => s.ret (-eBadf)
      | some i =>
        let entry := (s.fdTable cur).fds i
        -- the end a descriptor closes is read off its access mode
        let s :=
          if entry.privateData ≠ 0 then
            let pipe := s.pipes entry.privateData
            let closed :=
              if entry.fileFlags &&& FileFlags.accmode = FileFlags.rdonly then pipe.closeReadEnd s.kernel
              else pipe.closeWriteEnd s.kernel
            { s with kernel := closed.1, pipes := Function.update s.pipes entry.privateData closed.2 }
          else s
        let (t, r) := (s.fdTable cur).closeFd fd.toNat
        (s.setTable cur t).ret r

def sysLseek (fd offset whence : UInt64) : Outcome :=
  match s.kernel.gCurrentProcess with
  | none => s.ret (-eSrch)
  | some cur =>
    if fd.toNat ≥ maxFdsPerProcess then s.ret (-eBadf)
    else
      match (s.fdTable cur).getFd fd.toNat with
      | none => s.ret (-eBadf)
      | some i =>
        let entry := (s.fdTable cur).fds i
        if entry.privateData ≠ 0 then s.ret (-eSpipe)
        else if vfsIsDevice entry.inode then s.ret (-eSpipe)
        else
          let newOffset : Option ℤ :=
            if whence = 0 then some (ssize offset)
            else if whence = 1 then some (toInt64 (ssize (UInt64.ofNat entry.offset) + ssize offset))
            else if whence = 2 then some (toInt64 (vfsGetSize entry.inode + ssize offset))
            else none
          match newOffset with
          | none => s.ret (-eInval)
          | some newOffset =>
            if newOffset < 0 then s.ret (-eInval)
            else (s.setTable cur ((s.fdTable cur).setEntry i { entry with offset := newOffset.toNat })).ret newOffset

def sysDup (oldfd : UInt64) : Outcome :=
  match s.kernel.gCurrentProcess with
  | none => s.ret (-eSrch)
  | some cur =>
    if oldfd.toNat ≥ maxFdsPerProcess then s.ret (-eBadf)
    else if !(s.fdTable cur).isValidFd oldfd.toNat then s.ret (-eBadf)
    else
      let (t, newfd) := (s.fdTable cur).dupFd oldfd.toNat (-1)
      (s.setTable cur t).ret newfd

def closeIfOpen (t : FileDescriptorTable) (fd : ℤ) : FileDescriptorTable :=
  if t.isValidFd fd then (t.closeFd fd).1 else t

/-- `sys_dup2`; an open `newfd` is closed with `close_fd`, not `sys_close`, so
the pipe end it holds stays open. -/
def sysDup2 (oldfd newfd : UInt64) : Outcome :=
  match s.kernel.gCurrentProcess with
  | none => s.ret (-eSrch)
  | some cur =>
    if oldfd.toNat ≥ maxFdsPerProcess then s.ret (-eBadf)
    else if !(s.fdTable cur).isValidFd oldfd.toNat then s.ret (-eBadf)
    else if newfd.toNat ≥ maxFdsPerProcess then s.ret (-eBadf)
    else if oldfd.toNat = newfd.toNat then s.ret newfd.toNat
    else
      let (t, result) := (closeIfOpen (s.fdTable cur) newfd.toNat).dupFd oldfd.toNat newfd.toNat
      if result < 0 then (s.setTable cur t).ret result else (s.setTable cur t).ret newfd.toNat

def pipeEnd (fileFlags a : ℕ) : FileDescriptor := ⟨true, 0, fileFlags, 0, 0, a⟩

/-- A write through `get_fd(fd)`; the calls only make it on descriptors they
have just allocated. -/
def setFd (t : FileDescriptorTable) (fd : ℤ) (e : FileDescriptor) : FileDescriptorTable :=
  match t.getFd fd with
  | some i => t.setEntry i e
  | none => t

def sysPipe (pipefdAddr : UInt64) : Outcome :=
  match s.kernel.gCurrentProcess with
  | none => s.ret (-eSrch)
  | some cur =>
    if !isUserAddress pipefdAddr 8 then s.ret (-eFault)
    else
      let a := s.nextPipe
      let (t, readFd) := (s.fdTable cur).allocateFd
      if readFd < 0 then (s.setTable cur t).ret readFd
      else
        let (t, writeFd) := t.allocateFd
        if writeFd < 0 then (s.setTable cur (t.closeFd readFd).1).ret writeFd
        else
          let t := setFd (setFd t readFd (pipeEnd FileFlags.rdonly a)) writeFd (pipeEnd FileFlags.wronly a)
          -- `int pipefd[2]`, little-endian
          match copyToUser s.mem pipefdAddr (Buffer.storeLE 4 readFd.toNat ++ Buffer.storeLE 4 writeFd.toNat) with
          | .error r => (s.setTable cur ((t.closeFd readFd).1.closeFd writeFd).1).ret r
          | .ok mem =>
            ⟨{ s with
                fdTable := Function.update s.fdTable cur t
                pipes := Function.update s.pipes a Pipe.create
                nextPipe := a + 1
                nextPipe_pos := Nat.succ_pos a
                mem }, some 0, .none⟩

end Sys

/-- The loop of `F_DUPFD`, `while (newfd < arg && newfd >= 0)`, for at most
`fuel` turns: the table and descriptor it is at, and whether its test failed. -/
def dupfdLoop (arg : ℤ) : ℕ → FileDescriptorTable → ℤ → FileDescriptorTable × ℤ × Bool
  | 0, t, newfd => (t, newfd, false)
  | fuel + 1, t, newfd =>
    if newfd < arg ∧ 0 ≤ newfd then
      let next := (t.closeFd newfd).1.allocateFd
      dupfdLoop arg fuel next.1 next.2
    else (t, newfd, true)

/-- The turns of the loop of `F_DUPFD` a process makes before it is seen again. -/
def dupfdSlice : ℕ := maxFdsPerProcess + 1

namespace Sys

variable (s : Sys)

def dupfdRun (cur : Pid) (fd newfd arg : ℤ) : Outcome :=
  let (t, newfd, exited) := dupfdLoop arg dupfdSlice (s.fdTable cur) newfd
  let s := s.setTable cur t
  if !exited then ⟨s.setWaiting cur (some (.dupfd fd newfd arg)), none, .none⟩
  else if newfd < 0 then s.ret (-eMfile)
  else
    let (t, r) := t.dupFd fd newfd
    if r < 0 then (s.setTable cur t).ret r else (s.setTable cur t).ret newfd

def sysFcntl (fd cmd arg : UInt64) : Outcome :=
  match s.kernel.gCurrentProcess with
  | none => s.ret (-eSrch)
  | some cur =>
    if fd.toNat ≥ maxFdsPerProcess then s.ret (-eBadf)
    else
      match (s.fdTable cur).getFd fd.toNat with
      | none => s.ret (-eBadf)
      | some i =>
        let entry := (s.fdTable cur).fds i
        if cmd = 0 then
          let (t, newfd) := (s.fdTable cur).allocateFd
          if newfd < 0 then (s.setTable cur t).ret newfd
          else (s.setTable cur t).dupfdRun cur fd.toNat newfd (toInt32 arg.toNat)
        else if cmd = 1 then s.ret entry.flags
        else if cmd = 2 then (s.setTable cur ((s.fdTable cur).setEntry i { entry with flags := arg.toNat % 2 ^ 32 })).ret 0
        else if cmd = 3 then s.ret entry.fileFlags
        else if cmd = 4 then
          (s.setTable cur ((s.fdTable cur).setEntry i { entry with fileFlags := arg.toNat % 2 ^ 32 })).ret 0
        else s.ret (-eInval)

/-- `sys_fork` with the descriptor table: the child gets the copy `clone_to`
makes of its parent's. -/
def sysFork (child : Pid) (pcb : NewPcb) : Outcome :=
  match s.kernel.gCurrentProcess with
  | none => s.ret (-eSrch)
  | some parent =>
    let (kernel, r) := s.kernel.sysFork child pcb
    ⟨{ s with
        kernel
        fdTable := Function.update s.fdTable child (s.fdTable parent).cloneTo
        waiting := Function.update s.waiting child none }, some r, .none⟩

end Sys

inductive Syscall
  | sysRead (fd buf count : UInt64)
  | sysWrite (fd buf count : UInt64)
  | sysOpen (pathname flags mode : UInt64)
  | sysClose (fd : UInt64)
  | sysLseek (fd offset whence : UInt64)
  | sysPipe (pipefd : UInt64)
  | sysDup (oldfd : UInt64)
  | sysDup2 (oldfd newfd : UInt64)
  | sysFcntl (fd cmd arg : UInt64)
  | sysFork (child : Pid) (pcb : NewPcb)

/-- What the system does next: the running process traps into a call, the
running process goes on with the call it is inside, or `schedule()` runs. -/
inductive Event
  | call (c : Syscall)
  | resume
  | schedule

namespace Sys

variable (s : Sys)

def syscall : Syscall → Outcome
  | .sysRead fd buf count => s.sysRead fd buf count
  | .sysWrite fd buf count => s.sysWrite fd buf count
  | .sysOpen pathname flags mode => s.sysOpen pathname flags mode
  | .sysClose fd => s.sysClose fd
  | .sysLseek fd offset whence => s.sysLseek fd offset whence
  | .sysPipe pipefd => s.sysPipe pipefd
  | .sysDup oldfd => s.sysDup oldfd
  | .sysDup2 oldfd newfd => s.sysDup2 oldfd newfd
  | .sysFcntl fd cmd arg => s.sysFcntl fd cmd arg
  | .sysFork child pcb => s.sysFork child pcb

/-- A call going on inside the kernel: the return from `schedule()` in a pipe's
wait loop, or the next turns of the loop of `F_DUPFD`. -/
def resume (cur : Pid) : Waiting → Outcome
  | .read a buf count => (s.setWaiting cur none).pipeRead cur a buf count
  | .write a data =>
    let s := s.setWaiting cur none
    s.pipeWrite cur a data ((s.pipes a).writeResume s.kernel data)
  | .dupfd fd newfd arg => (s.setWaiting cur none).dupfdRun cur fd newfd arg

def step : Event → Outcome
  | .call c =>
    match s.kernel.gCurrentProcess with
    | some cur => if (s.waiting cur).isSome then ⟨s, none, .none⟩ else s.syscall c
    | none => s.syscall c
  | .resume =>
    match s.kernel.gCurrentProcess with
    | some cur =>
      match s.waiting cur with
      | some w => s.resume cur w
      | none => ⟨s, none, .none⟩
    | none => ⟨s, none, .none⟩
  | .schedule => ⟨{ s with kernel := s.kernel.schedule }, none, .none⟩

end Sys

/-- One standard descriptor of `spawn_server`: `allocate_fd`, then the console
written to the entry if `allocate_fd` handed out the number expected. -/
def placeConsole (t : FileDescriptorTable) (fd : ℤ) (fileFlags : ℕ) : FileDescriptorTable :=
  if t.allocateFd.2 = fd then Sys.setFd t.allocateFd.1 fd ⟨true, 0, fileFlags, 0, consoleInode, 0⟩
  else t.allocateFd.1

/-- The table `spawn_server` leaves: `initialize()`, then descriptors 0, 1 and 2
on the console. -/
def stdTable : FileDescriptorTable :=
  placeConsole (placeConsole (placeConsole .init 0 FileFlags.rdonly) 1 FileFlags.wronly) 2 FileFlags.wronly

/-- The system after boot: every process the kernel spawned holds its console
descriptors, no pipe exists yet and no call is under way. -/
def Sys.boot (k : Kernel) (mem : UserMem) : Sys :=
  ⟨k, fun _ => stdTable, fun _ => Pipe.create, 1, Nat.one_pos, mem, [], fun _ => none⟩

namespace Sys

variable (s : Sys) {p : Pid}

@[simp] theorem ret_sys (r : ℤ) : (s.ret r).sys = s := rfl

@[simp] theorem ret_moved (r : ℤ) : (s.ret r).moved = .none := rfl

@[simp] theorem setTable_fdTable (t : FileDescriptorTable) :
    (s.setTable p t).fdTable = Function.update s.fdTable p t := rfl

@[simp] theorem setTable_pipes (t : FileDescriptorTable) : (s.setTable p t).pipes = s.pipes := rfl

@[simp] theorem setTable_nextPipe (t : FileDescriptorTable) : (s.setTable p t).nextPipe = s.nextPipe := rfl

@[simp] theorem setTable_waiting (t : FileDescriptorTable) : (s.setTable p t).waiting = s.waiting := rfl

@[simp] theorem setTable_kernel (t : FileDescriptorTable) : (s.setTable p t).kernel = s.kernel := rfl

@[simp] theorem setTable_setTable (t t' : FileDescriptorTable) : (s.setTable p t).setTable p t' = s.setTable p t' := by
  simp [setTable]

@[simp] theorem setWaiting_waiting (w : Option Waiting) :
    (s.setWaiting p w).waiting = Function.update s.waiting p w := rfl

@[simp] theorem setWaiting_pipes (w : Option Waiting) : (s.setWaiting p w).pipes = s.pipes := rfl

@[simp] theorem setWaiting_nextPipe (w : Option Waiting) : (s.setWaiting p w).nextPipe = s.nextPipe := rfl

@[simp] theorem setWaiting_fdTable (w : Option Waiting) : (s.setWaiting p w).fdTable = s.fdTable := rfl

@[simp] theorem setWaiting_kernel (w : Option Waiting) : (s.setWaiting p w).kernel = s.kernel := rfl

@[simp] theorem pipeCall_pipes {α : Type} (a : ℕ) (call : PipeCall α) :
    (s.pipeCall a call).pipes = Function.update s.pipes a call.pipe := rfl

@[simp] theorem pipeCall_nextPipe {α : Type} (a : ℕ) (call : PipeCall α) :
    (s.pipeCall a call).nextPipe = s.nextPipe := rfl

@[simp] theorem pipeCall_waiting {α : Type} (a : ℕ) (call : PipeCall α) :
    (s.pipeCall a call).waiting = s.waiting := rfl

@[simp] theorem pipeCall_fdTable {α : Type} (a : ℕ) (call : PipeCall α) :
    (s.pipeCall a call).fdTable = s.fdTable := rfl

@[simp] theorem pipeCall_kernel {α : Type} (a : ℕ) (call : PipeCall α) :
    (s.pipeCall a call).kernel = call.kernel := rfl

@[simp] theorem pipeCall_mem {α : Type} (a : ℕ) (call : PipeCall α) : (s.pipeCall a call).mem = s.mem := rfl

end Sys

end Xinim.Proc
