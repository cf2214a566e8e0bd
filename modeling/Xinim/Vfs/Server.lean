import Xinim.Vfs.Ramfs

/-! The VFS server (servers/vfs_server/main.cpp): per-process descriptor
tables over the ramfs, and the handlers of VFS_OPEN, VFS_CLOSE, VFS_READ,
VFS_WRITE, VFS_LSEEK, VFS_MKDIR, VFS_RMDIR and VFS_UNLINK. Each request is the
protocol struct its handler reads. A handler's result is a `Fault` where the
C++ reads or writes memory outside the object it indexes or throws. -/

namespace Xinim.VfsServer

open Ramfs Buffer

def ipcSuccess : ℤ := 0
def ipcEnoent : ℤ := 2
def ipcEbadf : ℤ := 9
def ipcEacces : ℤ := 13
def ipcEexist : ℤ := 17
def ipcEisdir : ℤ := 21
def ipcEinval : ℤ := 22
def ipcEnosys : ℤ := 38
def ipcEnotempty : ℤ := 39

def oCreat : UInt32 := 0x40
def inlineSize : ℕ := 256
def currentPosition : UInt64 := 0xFFFFFFFFFFFFFFFF

structure FileDescriptor where
  node : ℕ
  offset : UInt64
  flags : UInt32

structure FdTable where
  fds : AList (fun _ : ℤ => FileDescriptor)
  nextFd : ℤ

namespace FdTable

def init : FdTable := ⟨∅, 3⟩

variable (t : FdTable)

def allocateFd (node : ℕ) (flags : UInt32) : FdTable × ℤ :=
  (⟨t.fds.insert t.nextFd ⟨node, 0, flags⟩, t.nextFd + 1⟩, t.nextFd)

def getFd (fd : ℤ) : Option FileDescriptor := t.fds.lookup fd

def closeFd (fd : ℤ) : FdTable × Bool := ({ t with fds := t.fds.erase fd }, decide (fd ∈ t.fds))

def setFd (fd : ℤ) (entry : FileDescriptor) : FdTable := { t with fds := t.fds.insert fd entry }

end FdTable

structure VfsServerState where
  fs : RamfsFilesystem
  processFds : ℤ → FdTable

/-- A path field as the std::string it is passed as: the bytes before the
first NUL. Without a NUL in the field, strlen reads past it. -/
def cString (field : Vector UInt8 256) : Except Fault (List UInt8) :=
  if 0 ∈ field.toList then .ok (field.toList.takeWhile (· != 0)) else .error .outOfBounds

/-- A shared_ptr dereferenced: the node at the address, or a fault where there
is none. -/
def deref (fs : RamfsFilesystem) (node : ℕ) : Except Fault RamfsNode :=
  match fs.nodes.lookup node with
  | some n => .ok n
  | none => .error .outOfBounds

/-- static_pointer_cast<RamfsFile>: a directory read as a file is outside its
object. -/
def asFile : RamfsNode → Except Fault (Metadata × List UInt8)
  | .file md data => .ok (md, data)
  | .dir .. => .error .outOfBounds

/-- A path field is the 256 bytes of char path[256]. -/
structure VfsOpenRequest where
  path : Vector UInt8 256
  flags : UInt32
  mode : UInt32
  callerPid : ℤ

structure VfsOpenResponse where
  fd : ℤ
  error : ℤ
  deriving DecidableEq

structure VfsCloseRequest where
  fd : ℤ
  callerPid : ℤ

structure VfsGenericResponse where
  result : ℤ
  error : ℤ
  deriving DecidableEq

structure VfsReadRequest where
  fd : ℤ
  count : UInt64
  offset : UInt64
  callerPid : ℤ

structure VfsReadResponse where
  bytesRead : ℤ
  error : ℤ
  inlineData : List UInt8
  deriving DecidableEq

structure VfsWriteRequest where
  fd : ℤ
  count : UInt64
  offset : UInt64
  callerPid : ℤ
  inlineData : Vector UInt8 256

structure VfsWriteResponse where
  bytesWritten : ℤ
  error : ℤ
  deriving DecidableEq

/-- The int64 offset is kept as its 64 bits, which is how it is added to
the unsigned descriptor offset and stored in it. -/
structure VfsLseekRequest where
  fd : ℤ
  offset : UInt64
  whence : ℤ
  callerPid : ℤ

structure VfsLseekResponse where
  newOffset : UInt64
  error : ℤ
  deriving DecidableEq

structure VfsMkdirRequest where
  path : Vector UInt8 256
  mode : UInt32
  callerPid : ℤ

structure VfsRmdirRequest where
  path : Vector UInt8 256
  callerPid : ℤ

structure VfsUnlinkRequest where
  path : Vector UInt8 256
  callerPid : ℤ

namespace VfsServerState

def init : VfsServerState :=
  let fs := RamfsFilesystem.init
  let fs := (fs.createDir fs.root [0x64, 0x65, 0x76] defaultDirMode).1
  let fs := (fs.createDir fs.root [0x74, 0x6D, 0x70] defaultDirMode).1
  let fs := (fs.createDir fs.root [0x65, 0x74, 0x63] defaultDirMode).1
  ⟨fs, fun _ => FdTable.init⟩

variable (s : VfsServerState)

def getProcessFds (pid : ℤ) : FdTable := s.processFds pid

def setProcessFds (pid : ℤ) (fds : FdTable) : VfsServerState :=
  { s with processFds := Function.update s.processFds pid fds }

/-- The node handle_open opens: the resolved path, or under O_CREAT a new file
in the resolved parent. -/
def openNode (path : List UInt8) (req : VfsOpenRequest) : RamfsFilesystem × Option ℕ :=
  match resolvePath s.fs path with
  | some node => (s.fs, some node)
  | none =>
    if req.flags &&& oCreat ≠ 0 then
      match resolveParent s.fs path with
      | (some parent, filename) => s.fs.createFile parent filename (req.mode &&& 0x0FFF).toUInt16
      | (none, _) => (s.fs, none)
    else (s.fs, none)

def handleOpen (req : VfsOpenRequest) : Except Fault (VfsServerState × VfsOpenResponse) := do
  let path ← cString req.path
  let (fs, node) := s.openNode path req
  let s := { s with fs }
  match node with
  | none => return (s, ⟨-1, ipcEnoent⟩)
  | some node =>
    let n ← deref fs node
    if !n.canRead 0 0 then return (s, ⟨-1, ipcEacces⟩)
    else
      let (fds, fd) := (s.getProcessFds req.callerPid).allocateFd node req.flags
      return (s.setProcessFds req.callerPid fds, ⟨fd, ipcSuccess⟩)

def handleClose (req : VfsCloseRequest) : VfsServerState × VfsGenericResponse :=
  let (fds, success) := (s.getProcessFds req.callerPid).closeFd req.fd
  (s.setProcessFds req.callerPid fds, if success then ⟨0, ipcSuccess⟩ else ⟨-1, ipcEbadf⟩)

def effectiveOffset (requested : UInt64) (entry : FileDescriptor) : UInt64 :=
  if requested ≠ currentPosition then requested else entry.offset

/-- The descriptor after a transfer of `count` bytes: advanced only when the
request asked for the current position. -/
def advance (requested : UInt64) (entry : FileDescriptor) (count : UInt64) : FileDescriptor :=
  if requested = currentPosition then { entry with offset := entry.offset + count } else entry

def handleRead (req : VfsReadRequest) : Except Fault (VfsServerState × VfsReadResponse) := do
  let fds := s.getProcessFds req.callerPid
  match fds.getFd req.fd with
  | none => return (s, ⟨-1, ipcEbadf, []⟩)
  | some entry =>
    let node ← deref s.fs entry.node
    if !node.isFile then return (s, ⟨-1, ipcEisdir, []⟩)
    else
      let (_, data) ← asFile node
      let offset := effectiveOffset req.offset entry
      if req.count.toNat ≤ inlineSize then
        -- the response arrives zeroed; read never reports -1, so the offset
        -- test on bytes_read always passes
        let (inline, bytesRead) ← RamfsFile.read data (List.replicate inlineSize 0) req.count offset
        let entry := advance req.offset entry bytesRead.toUInt64
        return (s.setProcessFds req.callerPid (fds.setFd req.fd entry), ⟨bytesRead, ipcSuccess, inline⟩)
      else return (s, ⟨-1, ipcEinval, []⟩)

def handleWrite (req : VfsWriteRequest) : Except Fault (VfsServerState × VfsWriteResponse) := do
  let fds := s.getProcessFds req.callerPid
  match fds.getFd req.fd with
  | none => return (s, ⟨-1, ipcEbadf⟩)
  | some entry =>
    let node ← deref s.fs entry.node
    if !node.isFile then return (s, ⟨-1, ipcEisdir⟩)
    else
      let (md, data) ← asFile node
      let offset := effectiveOffset req.offset entry
      if req.count.toNat ≤ inlineSize then
        let data ← RamfsFile.write data req.inlineData.toList req.count offset
        -- set_size(data_.size())
        let node := RamfsNode.file { md with size := data.length.toUInt64 } data
        let s := { s with fs := { s.fs with nodes := s.fs.nodes.insert entry.node node } }
        let entry := advance req.offset entry req.count
        return (s.setProcessFds req.callerPid (fds.setFd req.fd entry), ⟨req.count.toNat, ipcSuccess⟩)
      else return (s, ⟨-1, ipcEinval⟩)

def handleLseek (req : VfsLseekRequest) : Except Fault (VfsServerState × VfsLseekResponse) := do
  let fds := s.getProcessFds req.callerPid
  match fds.getFd req.fd with
  | none => return (s, ⟨-1, ipcEbadf⟩)
  | some entry =>
    let newOffset : Option UInt64 ←
      if req.whence = 0 then pure (some req.offset)
      else if req.whence = 1 then pure (some (entry.offset + req.offset))
      else if req.whence = 2 then do
        let node ← deref s.fs entry.node
        pure (some (node.size + req.offset))
      else pure none
    match newOffset with
    | none => return (s, ⟨-1, ipcEinval⟩)
    | some newOffset =>
      return (s.setProcessFds req.callerPid (fds.setFd req.fd { entry with offset := newOffset }),
        ⟨newOffset, ipcSuccess⟩)

def handleMkdir (req : VfsMkdirRequest) : Except Fault (VfsServerState × VfsGenericResponse) := do
  let path ← cString req.path
  match resolveParent s.fs path with
  | (none, _) => return (s, ⟨-1, ipcEnoent⟩)
  | (some parent, dirname) =>
    let (fs, dir) := s.fs.createDir parent dirname (req.mode &&& 0x0FFF).toUInt16
    return ({ s with fs }, if dir.isSome then ⟨0, ipcSuccess⟩ else ⟨-1, ipcEexist⟩)

/-- The common body of handle_rmdir and handle_unlink, which differ only in
the error they report when remove_node fails. -/
def removePath (field : Vector UInt8 256) (failure : ℤ) : Except Fault (VfsServerState × VfsGenericResponse) := do
  let path ← cString field
  match resolveParent s.fs path with
  | (none, _) => return (s, ⟨-1, ipcEnoent⟩)
  | (some parent, name) =>
    let (fs, result) := s.fs.removeNode parent name
    return ({ s with fs }, ⟨result, if result = 0 then ipcSuccess else failure⟩)

def handleRmdir (req : VfsRmdirRequest) : Except Fault (VfsServerState × VfsGenericResponse) :=
  s.removePath req.path ipcEnotempty

def handleUnlink (req : VfsUnlinkRequest) : Except Fault (VfsServerState × VfsGenericResponse) :=
  s.removePath req.path ipcEnoent

end VfsServerState

inductive VfsRequest
  | vfsOpen (req : VfsOpenRequest)
  | vfsClose (req : VfsCloseRequest)
  | vfsRead (req : VfsReadRequest)
  | vfsWrite (req : VfsWriteRequest)
  | vfsLseek (req : VfsLseekRequest)
  | vfsMkdir (req : VfsMkdirRequest)
  | vfsRmdir (req : VfsRmdirRequest)
  | vfsUnlink (req : VfsUnlinkRequest)
  | other

inductive VfsResponse
  | vfsOpen (resp : VfsOpenResponse)
  | generic (resp : VfsGenericResponse)
  | vfsRead (resp : VfsReadResponse)
  | vfsWrite (resp : VfsWriteResponse)
  | vfsLseek (resp : VfsLseekResponse)
  /-- The VFS_ERROR reply to a type without a handler. -/
  | error (resp : VfsGenericResponse)
  deriving DecidableEq

namespace VfsServerState

variable (s : VfsServerState)

def dispatchMessage : VfsRequest → Except Fault (VfsServerState × VfsResponse)
  | .vfsOpen req => Prod.map id .vfsOpen <$> s.handleOpen req
  | .vfsClose req => pure (Prod.map id .generic (s.handleClose req))
  | .vfsRead req => Prod.map id .vfsRead <$> s.handleRead req
  | .vfsWrite req => Prod.map id .vfsWrite <$> s.handleWrite req
  | .vfsLseek req => Prod.map id .vfsLseek <$> s.handleLseek req
  | .vfsMkdir req => Prod.map id .generic <$> s.handleMkdir req
  | .vfsRmdir req => Prod.map id .generic <$> s.handleRmdir req
  | .vfsUnlink req => Prod.map id .generic <$> s.handleUnlink req
  | .other => pure (s, .error ⟨-1, ipcEnosys⟩)

def run : VfsServerState → List VfsRequest → Except Fault VfsServerState
  | s, [] => .ok s
  | s, req :: reqs => do
    let (s, _) ← s.dispatchMessage req
    run s reqs

end VfsServerState

/-! ### What every reachable server state keeps -/

theorem permBits (mode : UInt32) : (mode &&& 0x0FFF).toUInt16 &&& 0xF000 = 0 := by
  apply UInt16.toBitVec_inj.mp
  simp only [UInt16.toBitVec_and, UInt32.toBitVec_toUInt16, UInt32.toBitVec_and, BitVec.setWidth_and,
    BitVec.and_assoc]
  have low : (UInt32.toBitVec 0x0FFF).setWidth 16 &&& UInt16.toBitVec 0xF000 = 0 := by decide
  rw [low]
  simp

theorem cString_of_mem {field : Vector UInt8 256} (terminated : 0 ∈ field.toList) :
    cString field = .ok (field.toList.takeWhile (· != 0)) := by
  simp [cString, terminated]

theorem deref_of_lookup {fs : RamfsFilesystem} {a : ℕ} {n : RamfsNode} (found : fs.nodes.lookup a = some n) :
    deref fs a = .ok n := by
  simp [deref, found]

theorem exists_lookup {fs : RamfsFilesystem} {a : ℕ} (mem : a ∈ fs.nodes) : ∃ n, fs.nodes.lookup a = some n :=
  Option.isSome_iff_exists.mp (AList.lookup_isSome.mpr mem)

namespace FdTable

variable {t : FdTable} {fd : ℤ}

theorem getFd_allocateFd (node : ℕ) (flags : UInt32) :
    (t.allocateFd node flags).1.getFd fd = if fd = t.nextFd then some ⟨node, 0, flags⟩ else t.getFd fd :=
  AList.lookup_insert_eq_ite _ _ _

theorem getFd_closeFd (fd' : ℤ) : (t.closeFd fd').1.getFd fd = if fd = fd' then none else t.getFd fd :=
  AList.lookup_erase_eq_ite _ _

theorem getFd_setFd (fd' : ℤ) (entry : FileDescriptor) :
    (t.setFd fd' entry).getFd fd = if fd = fd' then some entry else t.getFd fd :=
  AList.lookup_insert_eq_ite _ _ _

end FdTable

namespace VfsServerState

/-- The filesystem keeps its invariant and every descriptor names a node of
the heap. -/
structure Wf (s : VfsServerState) : Prop where
  fs : s.fs.Wf
  fds : ∀ pid fd entry, (s.getProcessFds pid).getFd fd = some entry → entry.node ∈ s.fs.nodes

variable {s : VfsServerState}

theorem Wf.setProcessFds (hw : s.Wf) {pid : ℤ} {t : FdTable}
    (names : ∀ fd entry, t.getFd fd = some entry → entry.node ∈ s.fs.nodes) : (s.setProcessFds pid t).Wf := by
  refine ⟨hw.fs, fun pid' fd entry found => ?_⟩
  by_cases same : pid' = pid
  · subst same
    simp only [getProcessFds, VfsServerState.setProcessFds, Function.update_self] at found
    exact names fd entry found
  · simp only [getProcessFds, VfsServerState.setProcessFds, Function.update_of_ne same] at found
    exact hw.fds pid' fd entry found

theorem Wf.withFs (hw : s.Wf) {fs : RamfsFilesystem} (hfs : fs.Wf) (grow : ∀ a ∈ s.fs.nodes, a ∈ fs.nodes) :
    ({ s with fs } : VfsServerState).Wf :=
  ⟨hfs, fun pid fd entry found => grow _ (hw.fds pid fd entry found)⟩

theorem Wf.setFd (hw : s.Wf) {pid fd : ℤ} {entry entry' : FileDescriptor}
    (found : (s.getProcessFds pid).getFd fd = some entry) (same : entry'.node = entry.node) :
    (s.setProcessFds pid ((s.getProcessFds pid).setFd fd entry')).Wf := by
  refine hw.setProcessFds fun fd' e named => ?_
  rw [FdTable.getFd_setFd] at named
  split_ifs at named
  · cases named
    rw [same]
    exact hw.fds pid fd entry found
  · exact hw.fds pid fd' e named

theorem Wf.init : VfsServerState.init.Wf := by
  have perm : defaultDirMode &&& 0xF000 = 0 := by decide
  refine ⟨((RamfsFilesystem.Wf.init.createDir perm).createDir perm).createDir perm, fun pid fd entry found => ?_⟩
  simp [getProcessFds, VfsServerState.init, FdTable.init, FdTable.getFd] at found

theorem Wf.handleClose (hw : s.Wf) (req : VfsCloseRequest) : (s.handleClose req).1.Wf := by
  have closed : (s.handleClose req).1 =
      s.setProcessFds req.callerPid ((s.getProcessFds req.callerPid).closeFd req.fd).1 := rfl
  rw [closed]
  refine hw.setProcessFds fun fd entry found => ?_
  rw [FdTable.getFd_closeFd] at found
  split_ifs at found
  exact hw.fds _ fd entry found

theorem advance_node (requested : UInt64) (entry : FileDescriptor) (count : UInt64) :
    (advance requested entry count).node = entry.node := by
  unfold advance
  split_ifs <;> rfl

theorem handleRead_spec {req : VfsReadRequest} {entry : FileDescriptor} {md : Metadata} {data : List UInt8}
    (found : (s.getProcessFds req.callerPid).getFd req.fd = some entry)
    (stored : s.fs.nodes.lookup entry.node = some (.file md data)) (typed : (RamfsNode.file md data).Typed)
    (small : req.count.toNat ≤ inlineSize) :
    let bytes := readAt data (effectiveOffset req.offset entry).toNat req.count.toNat
    s.handleRead req = .ok (s.setProcessFds req.callerPid
        ((s.getProcessFds req.callerPid).setFd req.fd (advance req.offset entry bytes.length.toUInt64)),
      ⟨bytes.length, ipcSuccess, bytes ++ (List.replicate inlineSize 0).drop bytes.length⟩) := by
  intro bytes
  unfold VfsServerState.handleRead
  dsimp only
  rw [found]
  dsimp only
  rw [deref_of_lookup stored]
  simp only [bind, Except.bind, typed.isFile_file, Bool.not_true, asFile]
  rw [if_neg Bool.false_ne_true, if_pos small, RamfsFile.read_spec (by simpa using small)]
  rfl

theorem Wf.handleRead (hw : s.Wf) (req : VfsReadRequest) : ∃ r, s.handleRead req = .ok r ∧ r.1.Wf := by
  cases found : (s.getProcessFds req.callerPid).getFd req.fd with
  | none => exact ⟨_, by simp only [VfsServerState.handleRead, found]; rfl, hw⟩
  | some entry =>
    obtain ⟨node, stored⟩ := exists_lookup (hw.fds _ _ _ found)
    have typed := hw.fs.typed _ _ stored
    cases node with
    | dir md entries =>
      refine ⟨(s, ⟨-1, ipcEisdir, []⟩), ?_, hw⟩
      simp only [VfsServerState.handleRead, found, deref_of_lookup stored, bind, Except.bind, typed.isFile_dir]
      rfl
    | file md data =>
      by_cases small : req.count.toNat ≤ inlineSize
      · exact ⟨_, handleRead_spec found stored typed small, hw.setFd found (advance_node _ _ _)⟩
      · refine ⟨(s, ⟨-1, ipcEinval, []⟩), ?_, hw⟩
        simp only [VfsServerState.handleRead, found, deref_of_lookup stored, bind, Except.bind, typed.isFile_file,
          Bool.not_true, asFile, small]
        rfl

theorem Wf.handleLseek (hw : s.Wf) (req : VfsLseekRequest) : ∃ r, s.handleLseek req = .ok r ∧ r.1.Wf := by
  unfold VfsServerState.handleLseek
  dsimp only
  split
  · exact ⟨_, rfl, hw⟩
  · rename_i entry found
    obtain ⟨node, stored⟩ := exists_lookup (hw.fds _ _ _ found)
    rw [deref_of_lookup stored]
    simp only [bind, Except.bind, pure, Except.pure]
    split_ifs
    · exact ⟨_, rfl, hw.setFd found rfl⟩
    · exact ⟨_, rfl, hw.setFd found rfl⟩
    · exact ⟨_, rfl, hw.setFd found rfl⟩
    · exact ⟨_, rfl, hw⟩

theorem handleWrite_eq_write {req : VfsWriteRequest} {entry : FileDescriptor} {md : Metadata}
    {data : List UInt8} (found : (s.getProcessFds req.callerPid).getFd req.fd = some entry)
    (stored : s.fs.nodes.lookup entry.node = some (.file md data)) (typed : (RamfsNode.file md data).Typed)
    (small : req.count.toNat ≤ inlineSize) :
    s.handleWrite req =
      (RamfsFile.write data req.inlineData.toList req.count (effectiveOffset req.offset entry)).map
        fun written =>
          let node := RamfsNode.file { md with size := written.length.toUInt64 } written
          let s' : VfsServerState := { s with fs := { s.fs with nodes := s.fs.nodes.insert entry.node node } }
          (s'.setProcessFds req.callerPid
              ((s.getProcessFds req.callerPid).setFd req.fd (advance req.offset entry req.count)),
            ⟨req.count.toNat, ipcSuccess⟩) := by
  unfold VfsServerState.handleWrite
  dsimp only
  rw [found]
  dsimp only
  rw [deref_of_lookup stored]
  simp only [bind, Except.bind, typed.isFile_file, Bool.not_true, asFile]
  rw [if_neg Bool.false_ne_true, if_pos small]
  cases RamfsFile.write data req.inlineData.toList req.count (effectiveOffset req.offset entry) <;> rfl

theorem handleWrite_spec {req : VfsWriteRequest} {entry : FileDescriptor} {md : Metadata} {data : List UInt8}
    (found : (s.getProcessFds req.callerPid).getFd req.fd = some entry)
    (stored : s.fs.nodes.lookup entry.node = some (.file md data)) (typed : (RamfsNode.file md data).Typed)
    (small : req.count.toNat ≤ inlineSize)
    (fits : (effectiveOffset req.offset entry).toNat + req.count.toNat ≤ vectorMaxSize) :
    let written := writeAt data (effectiveOffset req.offset entry).toNat (req.inlineData.toList.take req.count.toNat) 0
    let fs : RamfsFilesystem :=
      { s.fs with nodes := s.fs.nodes.insert entry.node (.file { md with size := written.length.toUInt64 } written) }
    s.handleWrite req = .ok (({ s with fs } : VfsServerState).setProcessFds req.callerPid
        ((s.getProcessFds req.callerPid).setFd req.fd (advance req.offset entry req.count)),
      ⟨req.count.toNat, ipcSuccess⟩) := by
  intro written fs
  have noWrap : (effectiveOffset req.offset entry).toNat + req.count.toNat < 2 ^ 64 :=
    lt_of_le_of_lt fits (by decide)
  rw [handleWrite_eq_write found stored typed small,
    RamfsFile.write_spec noWrap fits (by simpa [inlineSize] using small)]
  rfl

theorem handleWrite_of_wrap {req : VfsWriteRequest} {entry : FileDescriptor} {md : Metadata} {data : List UInt8}
    (found : (s.getProcessFds req.callerPid).getFd req.fd = some entry)
    (stored : s.fs.nodes.lookup entry.node = some (.file md data)) (typed : (RamfsNode.file md data).Typed)
    (bounded : data.length ≤ vectorMaxSize) (small : req.count.toNat ≤ inlineSize)
    (wrap : 2 ^ 64 ≤ (effectiveOffset req.offset entry).toNat + req.count.toNat) :
    s.handleWrite req = .error .outOfBounds := by
  rw [handleWrite_eq_write found stored typed small,
    RamfsFile.write_of_wrap wrap (le_trans small (by decide)) (by simpa [inlineSize] using small) bounded]
  rfl

theorem handleWrite_of_huge {req : VfsWriteRequest} {entry : FileDescriptor} {md : Metadata} {data : List UInt8}
    (found : (s.getProcessFds req.callerPid).getFd req.fd = some entry)
    (stored : s.fs.nodes.lookup entry.node = some (.file md data)) (typed : (RamfsNode.file md data).Typed)
    (bounded : data.length ≤ vectorMaxSize) (small : req.count.toNat ≤ inlineSize)
    (noWrap : (effectiveOffset req.offset entry).toNat + req.count.toNat < 2 ^ 64)
    (huge : vectorMaxSize < (effectiveOffset req.offset entry).toNat + req.count.toNat) :
    s.handleWrite req = .error .throws := by
  rw [handleWrite_eq_write found stored typed small, RamfsFile.write_of_huge noWrap huge bounded]
  rfl

theorem Wf.handleWrite (hw : s.Wf) {req : VfsWriteRequest}
    (fits : ∀ entry md data, (s.getProcessFds req.callerPid).getFd req.fd = some entry →
      s.fs.nodes.lookup entry.node = some (.file md data) → req.count.toNat ≤ inlineSize →
      (effectiveOffset req.offset entry).toNat + req.count.toNat ≤ vectorMaxSize) :
    ∃ r, s.handleWrite req = .ok r ∧ r.1.Wf := by
  cases found : (s.getProcessFds req.callerPid).getFd req.fd with
  | none => exact ⟨_, by simp only [VfsServerState.handleWrite, found]; rfl, hw⟩
  | some entry =>
    have named := hw.fds _ _ _ found
    obtain ⟨node, stored⟩ := exists_lookup named
    have typed := hw.fs.typed _ _ stored
    cases node with
    | dir md entries =>
      refine ⟨(s, ⟨-1, ipcEisdir⟩), ?_, hw⟩
      simp only [VfsServerState.handleWrite, found, deref_of_lookup stored, bind, Except.bind, typed.isFile_dir]
      rfl
    | file md data =>
      by_cases small : req.count.toNat ≤ inlineSize
      · have fit := fits entry md data found stored small
        refine ⟨_, handleWrite_spec found stored typed small fit, ?_⟩
        let written := writeAt data (effectiveOffset req.offset entry).toNat
          (req.inlineData.toList.take req.count.toNat) 0
        have typed' : (RamfsNode.file { md with size := written.length.toUInt64 } written).Typed := typed
        have bounded : (RamfsNode.file { md with size := written.length.toUInt64 } written).Bounded := by
          have old : data.length ≤ vectorMaxSize := hw.fs.bounded _ _ stored
          simp only [RamfsNode.Bounded, written, length_writeAt, List.length_take]
          omega
        have rewritten := hw.fs.insert typed' bounded (fun _ _ child => by simp [RamfsNode.lookup] at child)
          (hw.fs.below _ named) le_rfl
        exact (hw.withFs rewritten fun a mem => (AList.mem_insert _).mpr (.inr mem)).setFd found
          (advance_node _ _ _)
      · refine ⟨(s, ⟨-1, ipcEinval⟩), ?_, hw⟩
        simp only [VfsServerState.handleWrite, found, deref_of_lookup stored, bind, Except.bind, typed.isFile_file,
          Bool.not_true, asFile, small]
        rfl

theorem Wf.openNode (hw : s.Wf) (path : List UInt8) (req : VfsOpenRequest) :
    (s.openNode path req).1.Wf ∧ (∀ a ∈ s.fs.nodes, a ∈ (s.openNode path req).1.nodes) ∧
      ∀ a, (s.openNode path req).2 = some a → a ∈ (s.openNode path req).1.nodes := by
  unfold VfsServerState.openNode
  split
  · rename_i node resolved
    exact ⟨hw.fs, fun a mem => mem, fun a named => by cases named; exact hw.fs.resolvePath_mem resolved⟩
  · split_ifs
    · split
      · exact ⟨hw.fs.createFile (permBits _), RamfsFilesystem.createNode_mem.1, RamfsFilesystem.createNode_mem.2⟩
      · exact ⟨hw.fs, fun a mem => mem, fun a named => by cases named⟩
    · exact ⟨hw.fs, fun a mem => mem, fun a named => by cases named⟩

theorem Wf.handleOpen (hw : s.Wf) {req : VfsOpenRequest} (terminated : 0 ∈ req.path.toList) :
    ∃ r, s.handleOpen req = .ok r ∧ r.1.Wf := by
  unfold VfsServerState.handleOpen
  rw [cString_of_mem terminated]
  simp only [bind, Except.bind]
  obtain ⟨wf, grow, made⟩ := hw.openNode (req.path.toList.takeWhile (· != 0)) req
  generalize s.openNode _ req = opened at wf grow made ⊢
  obtain ⟨fs, node⟩ := opened
  have opened := hw.withFs wf grow
  cases node with
  | none => exact ⟨_, rfl, opened⟩
  | some node =>
    obtain ⟨n, stored⟩ := exists_lookup (made node rfl)
    simp only [deref_of_lookup stored]
    split_ifs
    · exact ⟨_, rfl, opened⟩
    · refine ⟨_, rfl, opened.setProcessFds fun fd entry named => ?_⟩
      rw [FdTable.getFd_allocateFd] at named
      split_ifs at named
      · cases named
        exact made node rfl
      · exact opened.fds _ fd entry named

theorem Wf.handleMkdir (hw : s.Wf) {req : VfsMkdirRequest} (terminated : 0 ∈ req.path.toList) :
    ∃ r, s.handleMkdir req = .ok r ∧ r.1.Wf := by
  unfold VfsServerState.handleMkdir
  rw [cString_of_mem terminated]
  simp only [bind, Except.bind]
  split
  · exact ⟨_, rfl, hw⟩
  · exact ⟨_, rfl, hw.withFs (hw.fs.createDir (permBits _)) RamfsFilesystem.createNode_mem.1⟩

theorem Wf.removePath (hw : s.Wf) {field : Vector UInt8 256} (terminated : 0 ∈ field.toList) (failure : ℤ) :
    ∃ r, s.removePath field failure = .ok r ∧ r.1.Wf := by
  unfold VfsServerState.removePath
  rw [cString_of_mem terminated]
  simp only [bind, Except.bind]
  split
  · exact ⟨_, rfl, hw⟩
  · exact ⟨_, rfl, hw.withFs (hw.fs.removeNode _ _) fun _ mem => RamfsFilesystem.removeNode_mem mem⟩

theorem cString_of_not_mem {field : Vector UInt8 256} (unterminated : 0 ∉ field.toList) :
    cString field = .error .outOfBounds := by
  simp [cString, unterminated]

/-- A request the server handles without a fault: its path field holds a NUL,
and a write of at most 256 bytes to a file ends, from the offset it uses,
within max_size. -/
def Safe (s : VfsServerState) : VfsRequest → Prop
  | .vfsOpen req => 0 ∈ req.path.toList
  | .vfsWrite req => ∀ entry md data, (s.getProcessFds req.callerPid).getFd req.fd = some entry →
      s.fs.nodes.lookup entry.node = some (.file md data) → req.count.toNat ≤ inlineSize →
      (effectiveOffset req.offset entry).toNat + req.count.toNat ≤ vectorMaxSize
  | .vfsMkdir req => 0 ∈ req.path.toList
  | .vfsRmdir req => 0 ∈ req.path.toList
  | .vfsUnlink req => 0 ∈ req.path.toList
  | _ => True

theorem ok_map {α β : Type} {e : Except Fault (VfsServerState × α)} {r : VfsServerState × α} (f : α → β)
    (h : e = .ok r) (wf : r.1.Wf) : ∃ r', Prod.map id f <$> e = .ok r' ∧ r'.1.Wf :=
  ⟨_, by rw [h]; rfl, wf⟩

theorem Wf.dispatchMessage (hw : s.Wf) {req : VfsRequest} (safe : s.Safe req) :
    ∃ r, s.dispatchMessage req = .ok r ∧ r.1.Wf := by
  cases req with
  | vfsOpen req =>
    obtain ⟨r, h, wf⟩ := hw.handleOpen safe
    exact ok_map _ h wf
  | vfsClose req => exact ⟨_, rfl, hw.handleClose req⟩
  | vfsRead req =>
    obtain ⟨r, h, wf⟩ := hw.handleRead req
    exact ok_map _ h wf
  | vfsWrite req =>
    obtain ⟨r, h, wf⟩ := hw.handleWrite safe
    exact ok_map _ h wf
  | vfsLseek req =>
    obtain ⟨r, h, wf⟩ := hw.handleLseek req
    exact ok_map _ h wf
  | vfsMkdir req =>
    obtain ⟨r, h, wf⟩ := hw.handleMkdir safe
    exact ok_map _ h wf
  | vfsRmdir req =>
    obtain ⟨r, h, wf⟩ := hw.removePath safe ipcEnotempty
    exact ok_map _ h wf
  | vfsUnlink req =>
    obtain ⟨r, h, wf⟩ := hw.removePath safe ipcEnoent
    exact ok_map _ h wf
  | other => exact ⟨_, rfl, hw⟩

theorem Wf.dispatchMessage_fault (hw : s.Wf) {req : VfsRequest} (risky : ¬ s.Safe req) :
    ∃ f, s.dispatchMessage req = .error f := by
  cases req with
  | vfsOpen req =>
    refine ⟨.outOfBounds, ?_⟩
    simp only [VfsServerState.dispatchMessage, VfsServerState.handleOpen, cString_of_not_mem risky]
    rfl
  | vfsWrite req =>
    simp only [Safe, not_forall] at risky
    obtain ⟨entry, md, data, found, stored, small, huge⟩ := risky
    have typed := hw.fs.typed _ _ stored
    have bounded : data.length ≤ vectorMaxSize := hw.fs.bounded _ _ stored
    by_cases wrap : 2 ^ 64 ≤ (effectiveOffset req.offset entry).toNat + req.count.toNat
    · refine ⟨.outOfBounds, ?_⟩
      simp only [VfsServerState.dispatchMessage, handleWrite_of_wrap found stored typed bounded small wrap]
      rfl
    · refine ⟨.throws, ?_⟩
      simp only [VfsServerState.dispatchMessage,
        handleWrite_of_huge found stored typed bounded small (Nat.lt_of_not_le wrap) (Nat.lt_of_not_le huge)]
      rfl
  | vfsMkdir req =>
    refine ⟨.outOfBounds, ?_⟩
    simp only [VfsServerState.dispatchMessage, VfsServerState.handleMkdir, cString_of_not_mem risky]
    rfl
  | vfsRmdir req =>
    refine ⟨.outOfBounds, ?_⟩
    simp only [VfsServerState.dispatchMessage, VfsServerState.handleRmdir, VfsServerState.removePath,
      cString_of_not_mem risky]
    rfl
  | vfsUnlink req =>
    refine ⟨.outOfBounds, ?_⟩
    simp only [VfsServerState.dispatchMessage, VfsServerState.handleUnlink, VfsServerState.removePath,
      cString_of_not_mem risky]
    rfl
  | _ => exact absurd trivial risky

theorem Wf.run (hw : s.Wf) (reqs : List VfsRequest) :
    (∃ s', s.run reqs = .ok s' ∧ s'.Wf) ∨
      ∃ (s' : VfsServerState) (req : VfsRequest) (f : Fault),
        s'.Wf ∧ ¬ s'.Safe req ∧ s'.dispatchMessage req = .error f ∧ s.run reqs = .error f := by
  induction reqs generalizing s with
  | nil => exact .inl ⟨s, rfl, hw⟩
  | cons req rest ih =>
    by_cases safe : s.Safe req
    · obtain ⟨r, handled, wf⟩ := hw.dispatchMessage safe
      have step : s.run (req :: rest) = r.1.run rest := by
        simp only [VfsServerState.run, handled, bind, Except.bind]
      rw [step]
      exact ih wf
    · obtain ⟨f, faulted⟩ := hw.dispatchMessage_fault safe
      refine .inr ⟨s, req, f, hw, safe, faulted, ?_⟩
      simp only [VfsServerState.run, faulted, bind, Except.bind]

end VfsServerState

def pathField (path : List UInt8) : Vector UInt8 256 := Vector.ofFn fun i => path.getD i 0

def openFile : VfsRequest := .vfsOpen ⟨pathField [0x2F, 0x66], oCreat, 0o644, 1⟩

def wrappingWrite : VfsRequest := .vfsWrite ⟨3, 2, 0xFFFFFFFFFFFFFFFE, 1, Vector.replicate 256 0x41⟩

theorem wrapping_write_copies_outside_data :
    (VfsServerState.init.dispatchMessage openFile).map Prod.snd = .ok (.vfsOpen ⟨3, ipcSuccess⟩) ∧
      (VfsServerState.init.run [openFile, wrappingWrite]).map (fun _ => ()) = .error .outOfBounds := by
  decide +kernel

end Xinim.VfsServer
