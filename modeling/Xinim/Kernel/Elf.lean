import Xinim.Proc.FileOps

/-! ELF64 loading (kernel/elf_loader.cpp): `validate_elf_header`,
`load_segment` and `load_elf_binary` over the VFS of kernel/vfs_interface.cpp,
which knows `/dev/console` only. Each `vfs_read` returns what `Proc.vfsRead`
returns for the inode and stores the bytes it gives into the loader's buffer
by `Buffer.copyIn`. -/

namespace Xinim.Kernel

open Buffer

def eNoexec : ℤ := 8

def elfMag0 : UInt8 := 0x7f
def elfMag1 : UInt8 := 0x45
def elfMag2 : UInt8 := 0x4C
def elfMag3 : UInt8 := 0x46
def elfClass64 : UInt8 := 2
def elfData2Lsb : UInt8 := 1
def evCurrent : UInt8 := 1
def etExec : UInt16 := 2
def etDyn : UInt16 := 3
def emX8664 : UInt16 := 62
def ptLoad : UInt32 := 1
def ptInterp : UInt32 := 3

def userStackTop : UInt64 := 0x00007FFFFFFFFFFF

def loadField (bytes : List UInt8) (off width : ℕ) : ℕ := loadLE (readAt bytes off width)

structure Elf64Ehdr where
  eIdent : List UInt8
  eType : UInt16
  eMachine : UInt16
  eVersion : UInt32
  eEntry : UInt64
  ePhoff : UInt64
  ePhentsize : UInt16
  ePhnum : UInt16

def Elf64Ehdr.ofBytes (bytes : List UInt8) : Elf64Ehdr where
  eIdent := readAt bytes 0 16
  eType := UInt16.ofNat (loadField bytes 16 2)
  eMachine := UInt16.ofNat (loadField bytes 18 2)
  eVersion := UInt32.ofNat (loadField bytes 20 4)
  eEntry := UInt64.ofNat (loadField bytes 24 8)
  ePhoff := UInt64.ofNat (loadField bytes 32 8)
  ePhentsize := UInt16.ofNat (loadField bytes 54 2)
  ePhnum := UInt16.ofNat (loadField bytes 56 2)

structure Elf64Phdr where
  pType : UInt32
  pOffset : UInt64
  pVaddr : UInt64
  pFilesz : UInt64
  pMemsz : UInt64
  pAlign : UInt64
  deriving DecidableEq

def Elf64Phdr.ofBytes (bytes : List UInt8) : Elf64Phdr where
  pType := UInt32.ofNat (loadField bytes 0 4)
  pOffset := UInt64.ofNat (loadField bytes 8 8)
  pVaddr := UInt64.ofNat (loadField bytes 16 8)
  pFilesz := UInt64.ofNat (loadField bytes 32 8)
  pMemsz := UInt64.ofNat (loadField bytes 40 8)
  pAlign := UInt64.ofNat (loadField bytes 48 8)

def validateElfHeader (ehdr : Elf64Ehdr) : Bool :=
  if ehdr.eIdent.getD 0 0 ≠ elfMag0 ∨ ehdr.eIdent.getD 1 0 ≠ elfMag1 ∨ ehdr.eIdent.getD 2 0 ≠ elfMag2 ∨
    ehdr.eIdent.getD 3 0 ≠ elfMag3 then false
  else if ehdr.eIdent.getD 4 0 ≠ elfClass64 then false
  else if ehdr.eIdent.getD 5 0 ≠ elfData2Lsb then false
  else if ehdr.eIdent.getD 6 0 ≠ evCurrent then false
  else if ehdr.eMachine ≠ emX8664 then false
  else if ehdr.eType ≠ etExec ∧ ehdr.eType ≠ etDyn then false
  else if ehdr.eVersion ≠ 1 then false
  else if ehdr.ePhentsize ≠ 56 then false
  else if ehdr.ePhnum = 0 ∨ ehdr.ePhnum > 128 then false
  else true

/-- `load_segment`: 0 or a negative errno; the read lands in the zeroed buffer
of `alloc_size` bytes. -/
def loadSegment (inode : ℕ) (phdr : Elf64Phdr) : Except Fault ℤ :=
  if phdr.pAlign > 1 ∧ phdr.pVaddr % phdr.pAlign ≠ 0 then .ok (-eInval) else
  let allocSize := (phdr.pMemsz + 0xFFF) &&& ~~~0xFFF
  let segmentBuf := List.replicate allocSize.toNat (0 : UInt8)
  if phdr.pFilesz > 0 then do
    let (bytesRead, data) := Proc.vfsRead inode
    let _ ← copyIn segmentBuf 0 data
    return if bytesRead ≠ ssize phdr.pFilesz then -eIo else 0
  else .ok 0

structure ElfLoadInfo where
  entryPoint : UInt64
  stackTop : UInt64
  brkStart : UInt64
  hasInterpreter : Bool
  interpreter : List UInt8
  deriving DecidableEq

def ElfLoadInfo.cleared : ElfLoadInfo := ⟨0, 0, 0, false, List.replicate 256 0⟩

structure LoadState where
  highestAddr : UInt64
  hasInterpreter : Bool
  loadInfo : ElfLoadInfo

/-- One turn of the loop: the code it ends the load with (0 to go on) and the
state after it. -/
def loadPhdr (inode : ℕ) (st : LoadState) (phdr : Elf64Phdr) : Except Fault (ℤ × LoadState) :=
  if phdr.pType = ptLoad then do
    let ret ← loadSegment inode phdr
    if ret < 0 then return (ret, st)
    let segEnd := phdr.pVaddr + phdr.pMemsz
    return (0, if segEnd > st.highestAddr then { st with highestAddr := segEnd } else st)
  else if phdr.pType = ptInterp then
    let st := { st with hasInterpreter := true }
    if phdr.pFilesz.toNat ≥ 256 then .ok (-eInval, st) else do
    let (bytesRead, data) := Proc.vfsRead inode
    let interpreter ← copyIn st.loadInfo.interpreter 0 data
    let st := { st with loadInfo := { st.loadInfo with interpreter } }
    if bytesRead ≠ ssize phdr.pFilesz then return (-eIo, st)
    return (0, { st with loadInfo := { st.loadInfo with interpreter := interpreter.set phdr.pFilesz.toNat 0 } })
  else .ok (0, st)

def loadPhdrs (inode : ℕ) : LoadState → List Elf64Phdr → Except Fault (ℤ × LoadState)
  | st, [] => .ok (0, st)
  | st, phdr :: phdrs => do
    let (ret, st) ← loadPhdr inode st phdr
    if ret < 0 then return (ret, st)
    loadPhdrs inode st phdrs

def readPhdrs (table : List UInt8) (phnum : ℕ) : List Elf64Phdr :=
  (List.range phnum).map fun i => Elf64Phdr.ofBytes (readAt table (i * 56) 56)

def finishLoad (ehdr : Elf64Ehdr) (ret : ℤ) (st : LoadState) : ℤ × ElfLoadInfo :=
  if ret < 0 then (ret, st.loadInfo)
  else (0, ⟨ehdr.eEntry, userStackTop, (st.highestAddr + 0xFFF) &&& ~~~0xFFF, st.hasInterpreter,
    st.loadInfo.interpreter⟩)

/-- `load_elf_binary`: the code it returns and `*load_info`. -/
def loadElfBinary (pathname : List UInt8) : Except Fault (ℤ × ElfLoadInfo) :=
  let inode := Proc.vfsLookup pathname
  if inode = 0 then .ok (-Proc.eNoent, ElfLoadInfo.cleared) else
  let (bytesRead, header) := Proc.vfsRead inode
  if bytesRead ≠ 64 then .ok (-eNoexec, ElfLoadInfo.cleared) else
  let ehdr := Elf64Ehdr.ofBytes header
  if !validateElfHeader ehdr then .ok (-eNoexec, ElfLoadInfo.cleared) else
  let phdrTableSize := ehdr.ePhnum.toNat * 56
  let (bytesRead, table) := Proc.vfsRead inode
  if bytesRead ≠ ssize (UInt64.ofNat phdrTableSize) then .ok (-eNoexec, ElfLoadInfo.cleared) else
  (fun result => finishLoad ehdr result.1 result.2) <$>
    loadPhdrs inode ⟨0, false, ElfLoadInfo.cleared⟩ (readPhdrs table ehdr.ePhnum.toNat)

/-- `vfs_lookup` finds `/dev/console` only, and `vfs_read` of it returns 0,
not the 64 bytes of a header: `load_elf_binary` fails on every path, before it
reads a program header. -/
theorem load_elf_binary_fails_on_every_path (pathname : List UInt8) :
    loadElfBinary pathname =
      .ok (if pathname = Proc.consolePath then -eNoexec else -Proc.eNoent, ElfLoadInfo.cleared) := by
  by_cases console : pathname = Proc.consolePath
  · have found : Proc.vfsLookup pathname = Proc.consoleInode := if_pos console
    have empty : Proc.vfsRead Proc.consoleInode = (0, []) := rfl
    rw [loadElfBinary]
    dsimp only
    rw [found, empty, if_pos console]
    simp [Proc.consoleInode]
  · have missing : Proc.vfsLookup pathname = 0 := if_neg console
    simp [loadElfBinary, missing, console]

end Xinim.Kernel
