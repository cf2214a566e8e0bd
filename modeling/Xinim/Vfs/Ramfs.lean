import Xinim.Data.AList
import Xinim.Data.Bytes

/-! The in-memory filesystem the VFS server runs on (vfs/ramfs.hpp) and the
path functions it resolves names with (vfs/path_util.hpp). Nodes live in a
heap of addresses, the model of their shared_ptr identity; a directory maps a
name to the address of its child. Names and paths are std::string, here their
bytes. A file's contents is its std::vector<uint8_t>, read and written through
the checked copies of `Buffer`. -/

namespace Xinim.Ramfs

open Buffer

def sIfreg : UInt16 := 0x8000
def sIfdir : UInt16 := 0x4000
def defaultDirMode : UInt16 := 0o755
def maxFilenameLen : ℕ := 255
/-- std::vector<uint8_t>::max_size() of libstdc++ on a 64-bit target. -/
def vectorMaxSize : ℕ := 2 ^ 63 - 1

def slash : UInt8 := 0x2F
def dot : List UInt8 := [0x2E]
def dotDot : List UInt8 := [0x2E, 0x2E]

/-- The metadata a modelled function reads or writes. The inode number is
written once and read by nothing here, and the times are a stub that is
always 0, so both are left out; uid and gid are the 0 the constructor sets. -/
structure Metadata where
  mode : UInt16
  nlink : UInt32
  uid : UInt32
  gid : UInt32
  size : UInt64
  deriving DecidableEq

def Metadata.incNlink (md : Metadata) : Metadata := { md with nlink := md.nlink + 1 }

def Metadata.decNlink (md : Metadata) : Metadata :=
  if md.nlink > 0 then { md with nlink := md.nlink - 1 } else md

/-- A node and what its class holds: a RamfsFile's data_, or a RamfsDir's
entries_ (name to child address). -/
inductive RamfsNode
  | file (md : Metadata) (data : List UInt8)
  | dir (md : Metadata) (entries : AList (fun _ : List UInt8 => ℕ))

namespace RamfsNode

def metadata : RamfsNode → Metadata
  | .file md _ => md
  | .dir md _ => md

def setMetadata : RamfsNode → Metadata → RamfsNode
  | .file _ data, md => .file md data
  | .dir _ entries, md => .dir md entries

def size (node : RamfsNode) : UInt64 := node.metadata.size

def isFile (node : RamfsNode) : Bool := node.metadata.mode &&& 0xF000 == sIfreg

def isDir (node : RamfsNode) : Bool := node.metadata.mode &&& 0xF000 == sIfdir

def canRead (node : RamfsNode) (uid gid : UInt32) : Bool :=
  if uid = 0 then true
  else if uid = node.metadata.uid then node.metadata.mode &&& 0x0100 != 0
  else if gid = node.metadata.gid then node.metadata.mode &&& 0x0020 != 0
  else node.metadata.mode &&& 0x0004 != 0

/-- RamfsDir::lookup, through the static_pointer_cast the callers make after
`is_dir`; a file has no entries. -/
def lookup (node : RamfsNode) (name : List UInt8) : Option ℕ :=
  match node with
  | .dir _ entries => entries.lookup name
  | .file .. => none

def isEmpty : RamfsNode → Bool
  | .dir _ entries => entries.entries.isEmpty
  | .file .. => true

end RamfsNode

namespace RamfsFile

/-- read: copies min(count, size - offset) bytes from offset into `buf` and
returns the new buffer and that count; at or past the end it copies nothing. -/
def read (data buf : List UInt8) (count offset : UInt64) : Except Fault (List UInt8 × ℕ) :=
  if offset.toNat ≥ data.length then .ok (buf, 0)
  else do
    let toRead := min count.toNat (data.length - offset.toNat)
    let bytes ← copyOut data offset.toNat toRead
    let buf ← copyIn buf 0 bytes
    return (buf, toRead)

/-- write: grows the data to offset + count when that sum, taken in uint64,
exceeds the size, then copies count bytes of `buf` to offset. A sum past
2^64 wraps and skips the resize. -/
def write (data buf : List UInt8) (count offset : UInt64) : Except Fault (List UInt8) := do
  let data ← if (offset + count).toNat > data.length then resize data (offset + count).toNat vectorMaxSize 0
    else pure data
  let bytes ← copyOut buf 0 count.toNat
  copyIn data offset.toNat bytes

def truncate (data : List UInt8) (size : UInt64) : Except Fault (List UInt8) :=
  resize data size.toNat vectorMaxSize 0

variable {data buf : List UInt8} {count offset : UInt64}

theorem read_spec (room : count.toNat ≤ buf.length) :
    let bytes := readAt data offset.toNat count.toNat
    read data buf count offset = .ok (bytes ++ buf.drop bytes.length, bytes.length) := by
  intro bytes
  by_cases past : offset.toNat ≥ data.length
  · have empty : bytes = [] := by simp [bytes, readAt, List.drop_eq_nil_of_le past]
    simp [read, past, empty]
  · have taken : readAt data offset.toNat (min count.toNat (data.length - offset.toNat)) = bytes := by
      simp only [bytes, readAt, ← List.length_drop]
      exact List.take_eq_take_min.symm
    have length : bytes.length = min count.toNat (data.length - offset.toNat) := by
      simp [bytes, length_readAt]
    have fits : offset.toNat + min count.toNat (data.length - offset.toNat) ≤ data.length := by omega
    simp only [read, past, if_false]
    rw [copyOut_of_le fits, taken]
    simp only [bind, Except.bind]
    rw [copyIn_of_le (by omega)]
    simp [length, pure, Except.pure]

theorem write_spec (noWrap : offset.toNat + count.toNat < 2 ^ 64)
    (small : offset.toNat + count.toNat ≤ vectorMaxSize) (room : count.toNat ≤ buf.length) :
    write data buf count offset = .ok (writeAt data offset.toNat (buf.take count.toNat) 0) := by
  have sum : (offset + count).toNat = offset.toNat + count.toNat := by
    rw [UInt64.toNat_add]
    exact Nat.mod_eq_of_lt noWrap
  have bytes : readAt buf 0 count.toNat = buf.take count.toNat := by simp [readAt]
  have length : (buf.take count.toNat).length = count.toNat := by simp [room]
  by_cases grows : offset.toNat + count.toNat > data.length
  · simp only [write, sum, grows, if_true]
    rw [resize_of_le 0 small, copyOut_of_le (by simpa using room), bytes]
    simp only [bind, Except.bind]
    rw [copyIn_of_le (by simp [length]; omega), writeAt_of_lt 0 (by rw [length]; omega), length]
  · simp only [write, sum, grows, if_false]
    rw [copyOut_of_le (by simpa using room), bytes]
    simp only [bind, Except.bind, pure, Except.pure]
    rw [copyIn_of_le (by rw [length]; omega), writeAt_of_le 0 (by rw [length]; omega), length]

theorem write_of_wrap (wrap : 2 ^ 64 ≤ offset.toNat + count.toNat) (small : count.toNat ≤ vectorMaxSize)
    (room : count.toNat ≤ buf.length) (bounded : data.length ≤ vectorMaxSize) :
    write data buf count offset = .error .outOfBounds := by
  have := offset.toNat_lt
  have := count.toNat_lt
  have maxSize : vectorMaxSize < 2 ^ 64 := by decide
  have sum : (offset + count).toNat = offset.toNat + count.toNat - 2 ^ 64 := by
    rw [UInt64.toNat_add]
    omega
  have length : (readAt buf 0 count.toNat).length = count.toNat := by simp [room]
  have below : (offset + count).toNat < 2 ^ 64 := (offset + count).toNat_lt
  by_cases grows : (offset + count).toNat > data.length
  · simp only [write, grows, if_true]
    rw [resize_of_le 0 (by omega), copyOut_of_le (by simpa using room)]
    simp only [bind, Except.bind]
    rw [copyIn_of_lt (by simp [length]; omega)]
  · simp only [write, grows, if_false]
    rw [copyOut_of_le (by simpa using room)]
    simp only [bind, Except.bind, pure, Except.pure]
    rw [copyIn_of_lt (by rw [length]; omega)]

theorem write_of_huge (noWrap : offset.toNat + count.toNat < 2 ^ 64)
    (huge : vectorMaxSize < offset.toNat + count.toNat) (bounded : data.length ≤ vectorMaxSize) :
    write data buf count offset = .error .throws := by
  have sum : (offset + count).toNat = offset.toNat + count.toNat := by
    rw [UInt64.toNat_add]
    exact Nat.mod_eq_of_lt noWrap
  have grows : (offset + count).toNat > data.length := by omega
  simp only [write, grows, if_true]
  rw [sum, resize_of_lt 0 huge]
  rfl

end RamfsFile

/-- RamfsDir::add_entry: refuses an empty, overlong, reserved or taken name. -/
def addEntry (entries : AList (fun _ : List UInt8 => ℕ)) (name : List UInt8) (node : ℕ) :
    Option (AList (fun _ : List UInt8 => ℕ)) :=
  if name = [] ∨ name.length > maxFilenameLen then none
  else if name = dot ∨ name = dotDot then none
  else if name ∈ entries then none
  else some (entries.insert name node)

structure RamfsFilesystem where
  root : ℕ
  nodes : AList (fun _ : ℕ => RamfsNode)
  fresh : ℕ

namespace RamfsFilesystem

def init : RamfsFilesystem :=
  ⟨0, (∅ : AList (fun _ : ℕ => RamfsNode)).insert 0 (.dir ⟨sIfdir ||| defaultDirMode, 1, 0, 0, 0⟩ ∅), 1⟩

variable (fs : RamfsFilesystem)

/-- The common body of create_file and create_dir: `node` at a fresh
address, entered under `parent` as `name`, and the parent's metadata then
updated by `link`. The parent is always a directory (the callers take it from
resolve_parent); the last case stands for one that is not. -/
def createNode (parent : ℕ) (name : List UInt8) (node : RamfsNode) (link : Metadata → Metadata) :
    RamfsFilesystem × Option ℕ :=
  match fs.nodes.lookup parent with
  | some (.dir pmeta entries) =>
    if name ∈ entries then (fs, none)
    else
      match addEntry entries name fs.fresh with
      | none => (fs, none)
      | some entries =>
        ({ fs with
            nodes := (fs.nodes.insert fs.fresh node).insert parent (.dir (link pmeta) entries)
            fresh := fs.fresh + 1 }, some fs.fresh)
  | _ => (fs, none)

def createFile (parent : ℕ) (name : List UInt8) (mode : UInt16) : RamfsFilesystem × Option ℕ :=
  fs.createNode parent name (.file ⟨sIfreg ||| mode, 1, 0, 0, 0⟩ []) id

def createDir (parent : ℕ) (name : List UInt8) (mode : UInt16) : RamfsFilesystem × Option ℕ :=
  fs.createNode parent name (.dir ⟨sIfdir ||| mode, 1, 0, 0, 0⟩ ∅) Metadata.incNlink

/-- remove_node: a directory must be empty and takes its ".." link from the
parent; the node loses a link, and at none left its entry goes. -/
def removeNode (parent : ℕ) (name : List UInt8) : RamfsFilesystem × ℤ :=
  match fs.nodes.lookup parent with
  | some (.dir pmeta entries) =>
    match entries.lookup name with
    | none => (fs, -1)
    | some child =>
      match fs.nodes.lookup child with
      | none => (fs, -1)
      | some node =>
        if node.isDir ∧ !node.isEmpty then (fs, -1)
        else
          let pmeta := if node.isDir then pmeta.decNlink else pmeta
          let node := node.setMetadata node.metadata.decNlink
          let nodes := fs.nodes.insert child node
          if node.metadata.nlink = 0 then
            ({ fs with nodes := nodes.insert parent (.dir pmeta (entries.erase name)) }, 0)
          else ({ fs with nodes := nodes.insert parent (.dir pmeta entries) }, 0)
  | _ => (fs, -1)

end RamfsFilesystem

/-- split_path: the pieces between slashes, empty and "." pieces dropped and
".." taking back the last component kept. -/
def splitPath (path : List UInt8) : List (List UInt8) :=
  (path.splitOn slash).foldl (fun components piece =>
    if piece = [] ∨ piece = dot then components
    else if piece = dotDot then components.dropLast
    else components ++ [piece]) []

def walk (fs : RamfsFilesystem) : ℕ → List (List UInt8) → Option ℕ
  | current, [] => some current
  | current, component :: rest =>
    match fs.nodes.lookup current with
    | some node => if !node.isDir then none else (node.lookup component).bind (walk fs · rest)
    | none => none

def resolvePath (fs : RamfsFilesystem) (path : List UInt8) : Option ℕ :=
  if path = [] then none
  else if path = [slash] then some fs.root
  else walk fs fs.root (splitPath path)

/-- resolve_parent: the directory holding the last component, and that
component. The parent's path is rebuilt as "/" before each component and
resolved again. -/
def resolveParent (fs : RamfsFilesystem) (path : List UInt8) : Option ℕ × List UInt8 :=
  if path = [] ∨ path = [slash] then (none, [])
  else
    let components := splitPath path
    match components.getLast? with
    | none => (none, [])
    | some filename =>
      let parents := components.dropLast
      if parents = [] then (some fs.root, filename)
      else
        match resolvePath fs (parents.flatMap (slash :: ·)) with
        | some parent =>
          if (fs.nodes.lookup parent).any RamfsNode.isDir then (some parent, filename) else (none, [])
        | none => (none, [])

/-! ### What every reachable filesystem keeps -/

theorem typeBits_or {x t : UInt16} (hx : x &&& 0xF000 = 0) (ht : t &&& 0xF000 = t) :
    (t ||| x) &&& 0xF000 = t := by
  apply UInt16.toBitVec_inj.mp
  have hx' := congrArg UInt16.toBitVec hx
  have ht' := congrArg UInt16.toBitVec ht
  simp only [UInt16.toBitVec_and, UInt16.toBitVec_or] at *
  rw [BitVec.and_or_distrib_right, hx', ht']
  simp

@[simp] theorem decNlink_mode (md : Metadata) : md.decNlink.mode = md.mode := by
  unfold Metadata.decNlink
  split_ifs <;> rfl

namespace RamfsNode

def Typed : RamfsNode → Prop
  | .file md _ => md.mode &&& 0xF000 = sIfreg
  | .dir md _ => md.mode &&& 0xF000 = sIfdir

def Bounded : RamfsNode → Prop
  | .file _ data => data.length ≤ vectorMaxSize
  | .dir .. => True

variable {md : Metadata} {data : List UInt8} {entries : AList (fun _ : List UInt8 => ℕ)}

theorem Typed.isFile_file (h : (file md data).Typed) : (file md data).isFile = true := by
  simp only [Typed] at h
  simp [isFile, metadata, h]

theorem Typed.isFile_dir (h : (dir md entries).Typed) : (dir md entries).isFile = false := by
  simp only [Typed] at h
  simp only [isFile, metadata, h]
  decide

theorem setMetadata_spec (n : RamfsNode) {md' : Metadata} (mode : md'.mode = n.metadata.mode) :
    ((n.setMetadata md').Typed ↔ n.Typed) ∧ ((n.setMetadata md').Bounded ↔ n.Bounded) ∧
      ∀ name, (n.setMetadata md').lookup name = n.lookup name := by
  cases n <;> simp_all [setMetadata, Typed, Bounded, lookup, metadata]

end RamfsNode

theorem lookup_of_addEntry {entries entries' : AList (fun _ : List UInt8 => ℕ)} {name : List UInt8} {a : ℕ}
    (h : addEntry entries name a = some entries') (name' : List UInt8) {c : ℕ}
    (found : entries'.lookup name' = some c) : c = a ∨ entries.lookup name' = some c := by
  unfold addEntry at h
  split_ifs at h
  cases h
  rw [AList.lookup_insert_eq_ite] at found
  split_ifs at found
  · exact .inl (Option.some_injective _ found).symm
  · exact .inr found

namespace RamfsFilesystem

/-- Every node is typed and bounded, every child a directory names is in the
heap, every address in the heap is below `fresh`, and the root is there. -/
structure Wf (fs : RamfsFilesystem) : Prop where
  typed : ∀ a n, fs.nodes.lookup a = some n → n.Typed
  bounded : ∀ a n, fs.nodes.lookup a = some n → n.Bounded
  closed : ∀ a n name c, fs.nodes.lookup a = some n → n.lookup name = some c → c ∈ fs.nodes
  below : ∀ a ∈ fs.nodes, a < fs.fresh
  root : fs.root ∈ fs.nodes

variable {fs : RamfsFilesystem}

theorem mem_of_lookup {a : ℕ} {n : RamfsNode} (found : fs.nodes.lookup a = some n) : a ∈ fs.nodes :=
  AList.lookup_isSome.mp (by simp [found])

theorem Wf.insert (hw : fs.Wf) {a fresh : ℕ} {n : RamfsNode} (typed : n.Typed) (bounded : n.Bounded)
    (closed : ∀ name c, n.lookup name = some c → c = a ∨ c ∈ fs.nodes) (below : a < fresh)
    (grow : fs.fresh ≤ fresh) : (⟨fs.root, fs.nodes.insert a n, fresh⟩ : RamfsFilesystem).Wf where
  typed b m found := by
    rw [AList.lookup_insert_eq_ite] at found
    split_ifs at found
    · cases found
      exact typed
    · exact hw.typed b m found
  bounded b m found := by
    rw [AList.lookup_insert_eq_ite] at found
    split_ifs at found
    · cases found
      exact bounded
    · exact hw.bounded b m found
  closed b m name c found child := by
    rw [AList.mem_insert]
    rw [AList.lookup_insert_eq_ite] at found
    split_ifs at found
    · cases found
      exact closed name c child
    · exact .inr (hw.closed b m name c found child)
  below b mem := by
    rcases (AList.mem_insert _).mp mem with rfl | mem
    · exact below
    · exact lt_of_lt_of_le (hw.below b mem) grow
  root := (AList.mem_insert _).mpr (.inr hw.root)

theorem Wf.init : RamfsFilesystem.init.Wf := by
  have only : ∀ a n, RamfsFilesystem.init.nodes.lookup a = some n →
      n = .dir ⟨sIfdir ||| defaultDirMode, 1, 0, 0, 0⟩ ∅ := by
    intro a n found
    simp only [RamfsFilesystem.init, AList.lookup_insert_eq_ite, AList.lookup_empty] at found
    split_ifs at found
    exact (Option.some_injective _ found).symm
  refine ⟨fun a n found => ?_, fun a n found => ?_, fun a n name c found child => ?_, fun a mem => ?_, ?_⟩
  · rw [only a n found]
    simp only [RamfsNode.Typed]
    decide
  · rw [only a n found]
    trivial
  · rw [only a n found] at child
    simp [RamfsNode.lookup] at child
  · have found := AList.lookup_isSome.mpr mem
    simp only [RamfsFilesystem.init, AList.lookup_insert_eq_ite, AList.lookup_empty] at found
    split_ifs at found with root
    · simp [RamfsFilesystem.init, root]
    · simp at found
  · exact (AList.mem_insert _).mpr (.inl rfl)

theorem createNode_cases {parent : ℕ} {name : List UInt8} {node : RamfsNode} {link : Metadata → Metadata} :
    fs.createNode parent name node link = (fs, none) ∨
      ∃ pmeta entries entries', fs.nodes.lookup parent = some (.dir pmeta entries) ∧
        addEntry entries name fs.fresh = some entries' ∧
        fs.createNode parent name node link =
          (⟨fs.root, (fs.nodes.insert fs.fresh node).insert parent (.dir (link pmeta) entries'), fs.fresh + 1⟩,
            some fs.fresh) := by
  unfold createNode
  split
  · rename_i pmeta entries found
    split_ifs
    · exact .inl rfl
    · split
      · exact .inl rfl
      · rename_i entries' added
        exact .inr ⟨pmeta, entries, entries', found, added, rfl⟩
  · exact .inl rfl

theorem Wf.createNode (hw : fs.Wf) {parent : ℕ} {name : List UInt8} {node : RamfsNode}
    {link : Metadata → Metadata} (typed : node.Typed) (bounded : node.Bounded)
    (leaf : ∀ name c, node.lookup name = some c → c ∈ fs.nodes) (linkMode : ∀ md, (link md).mode = md.mode) :
    (fs.createNode parent name node link).1.Wf := by
  rcases createNode_cases with same | ⟨pmeta, entries, entries', found, added, created⟩
  · rw [same]
    exact hw
  · rw [created]
    have first := hw.insert typed bounded (fun name c child => .inr (leaf name c child))
      (Nat.lt_succ_self fs.fresh) (Nat.le_succ fs.fresh)
    have parentTyped : (RamfsNode.dir (link pmeta) entries').Typed := by
      have := hw.typed parent _ found
      simp only [RamfsNode.Typed] at this ⊢
      rwa [linkMode]
    refine first.insert parentTyped trivial (fun name' c child => .inr ?_)
      (Nat.lt_succ_of_lt (hw.below parent (mem_of_lookup found))) le_rfl
    rw [AList.mem_insert]
    rcases lookup_of_addEntry added name' child with rfl | old
    · exact .inl rfl
    · exact .inr (hw.closed parent _ name' c found old)

theorem createNode_mem {parent : ℕ} {name : List UInt8} {node : RamfsNode} {link : Metadata → Metadata} :
    (∀ a ∈ fs.nodes, a ∈ (fs.createNode parent name node link).1.nodes) ∧
      ∀ a, (fs.createNode parent name node link).2 = some a → a ∈ (fs.createNode parent name node link).1.nodes := by
  rcases createNode_cases with same | ⟨pmeta, entries, entries', found, added, created⟩
  · rw [same]
    exact ⟨fun a mem => mem, fun a none => by cases none⟩
  · rw [created]
    refine ⟨fun a mem => ?_, fun a made => ?_⟩
    · exact (AList.mem_insert _).mpr (.inr ((AList.mem_insert _).mpr (.inr mem)))
    · cases made
      exact (AList.mem_insert _).mpr (.inr ((AList.mem_insert _).mpr (.inl rfl)))

theorem Wf.createFile (hw : fs.Wf) {parent : ℕ} {name : List UInt8} {mode : UInt16}
    (perm : mode &&& 0xF000 = 0) : (fs.createFile parent name mode).1.Wf :=
  hw.createNode (typeBits_or perm (by decide)) (by simp [RamfsNode.Bounded])
    (fun _ _ child => by simp [RamfsNode.lookup] at child) (fun _ => rfl)

theorem Wf.createDir (hw : fs.Wf) {parent : ℕ} {name : List UInt8} {mode : UInt16}
    (perm : mode &&& 0xF000 = 0) : (fs.createDir parent name mode).1.Wf :=
  hw.createNode (typeBits_or perm (by decide)) trivial
    (fun _ _ child => by simp [RamfsNode.lookup] at child) (fun _ => rfl)

theorem removeNode_cases {parent : ℕ} {name : List UInt8} :
    (fs.removeNode parent name).1 = fs ∨
      ∃ pmeta entries child node pmeta' entries', fs.nodes.lookup parent = some (.dir pmeta entries) ∧
        fs.nodes.lookup child = some node ∧ pmeta'.mode = pmeta.mode ∧
        (∀ name c, entries'.lookup name = some c → entries.lookup name = some c) ∧
        (fs.removeNode parent name).1 =
          ⟨fs.root, (fs.nodes.insert child (node.setMetadata node.metadata.decNlink)).insert parent
            (.dir pmeta' entries'), fs.fresh⟩ := by
  unfold removeNode
  split
  · rename_i pmeta entries found
    split
    · exact .inl rfl
    · rename_i child named
      split
      · exact .inl rfl
      · rename_i node stored
        by_cases full : node.isDir ∧ !node.isEmpty
        · rw [if_pos full]
          exact .inl rfl
        · rw [if_neg full]
          dsimp only
          have mode : (if node.isDir then pmeta.decNlink else pmeta).mode = pmeta.mode := by
            split_ifs <;> simp
          by_cases gone : (node.setMetadata node.metadata.decNlink).metadata.nlink = 0
          · rw [if_pos gone]
            refine .inr ⟨pmeta, entries, child, node, _, entries.erase name, found, stored, mode, ?_, rfl⟩
            intro name' c erased
            rw [AList.lookup_erase_eq_ite] at erased
            split_ifs at erased
            exact erased
          · rw [if_neg gone]
            exact .inr ⟨pmeta, entries, child, node, _, entries, found, stored, mode, fun _ _ => id, rfl⟩
  · exact .inl rfl

theorem Wf.removeNode (hw : fs.Wf) (parent : ℕ) (name : List UInt8) : (fs.removeNode parent name).1.Wf := by
  rcases removeNode_cases with same | ⟨pmeta, entries, child, node, pmeta', entries', found, stored, mode, kept,
    removed⟩
  · rw [same]
    exact hw
  · rw [removed]
    obtain ⟨typed, bounded, lookup⟩ := node.setMetadata_spec (decNlink_mode node.metadata)
    have first := hw.insert (typed.mpr (hw.typed child node stored)) (bounded.mpr (hw.bounded child node stored))
      (fun name c named => .inr (hw.closed child node name c stored ((lookup name).symm.trans named)))
      (hw.below child (mem_of_lookup stored)) le_rfl
    have parentTyped : (RamfsNode.dir pmeta' entries').Typed := by
      have := hw.typed parent _ found
      simp only [RamfsNode.Typed] at this ⊢
      rwa [mode]
    exact first.insert parentTyped trivial
      (fun name c named => .inr ((AList.mem_insert _).mpr (.inr (hw.closed parent _ name c found (kept name c named)))))
      (hw.below parent (mem_of_lookup found)) le_rfl

theorem removeNode_mem {parent : ℕ} {name : List UInt8} {a : ℕ} (mem : a ∈ fs.nodes) :
    a ∈ (fs.removeNode parent name).1.nodes := by
  rcases removeNode_cases with same | ⟨_, _, _, _, _, _, _, _, _, _, removed⟩
  · rw [same]
    exact mem
  · rw [removed]
    exact (AList.mem_insert _).mpr (.inr ((AList.mem_insert _).mpr (.inr mem)))

theorem Wf.walk_mem (hw : fs.Wf) {r : ℕ} :
    ∀ {current : ℕ} (components : List (List UInt8)), current ∈ fs.nodes →
      walk fs current components = some r → r ∈ fs.nodes
  | current, [], mem, h => by
    cases h
    exact mem
  | current, component :: rest, mem, h => by
    simp only [walk] at h
    split at h
    · rename_i node found
      split_ifs at h
      obtain ⟨child, named, next⟩ := Option.bind_eq_some_iff.mp h
      exact hw.walk_mem rest (hw.closed current node component child found named) next
    · cases h

theorem Wf.resolvePath_mem (hw : fs.Wf) {path : List UInt8} {r : ℕ} (h : resolvePath fs path = some r) :
    r ∈ fs.nodes := by
  unfold resolvePath at h
  split_ifs at h
  · cases h
    exact hw.root
  · exact hw.walk_mem _ hw.root h

end RamfsFilesystem

end Xinim.Ramfs
