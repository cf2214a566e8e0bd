import Mathlib
import Xinim.Data.Chains

/-! The buffer cache of the file system server (fs/cache.cpp, fs/buf.hpp,
`buf_pool` of fs/main.cpp): `NR_BUFS` buffers on one LRU list threaded through
`b_next`/`b_prev` from `front` (least recently used) to `rear`, and
`kNrBufHash` hash chains threaded through `b_hash`. `dev_io` is an oracle:
whether a read or a write succeeds during one call is an argument of that
call. Block contents are left out; no function of the cache reads them. -/

namespace Xinim.Fs

open Intrusive Chains

def nrBufs : ℕ := 20

def kNrBufHash : ℕ := 32

abbrev BlockNr := UInt16

abbrev DevNr := UInt16

def kNoBlock : BlockNr := 0

def kNoDev : DevNr := 0xFFFF

inductive IoMode
  | normal
  | noRead
  deriving DecidableEq

inductive BlockType
  | writeImmediate
  | oneShot
  | inode
  | directory
  | indirect
  | iMap
  | zMap
  | zuper
  | fullData
  | partialData
  deriving DecidableEq

def BlockType.toUnderlying : BlockType → ℕ
  | writeImmediate => 0o100
  | oneShot => 0o200
  | inode => 0 + 0o100
  | directory => 1 + 0o100
  | indirect => 2 + 0o100
  | iMap => 3 + 0o100 + 0o200
  | zMap => 4 + 0o100 + 0o200
  | zuper => 5 + 0o100 + 0o200
  | fullData => 6
  | partialData => 7

def hasFlag (type flag : BlockType) : Bool := type.toUnderlying &&& flag.toUnderlying != 0

inductive RwFlag
  | reading
  | writing
  deriving DecidableEq

abbrev DevIo := RwFlag → Bool

/-- The fields of `struct buf` the cache reads; `b_dirt` is `DIRTY`, and
`b_count` is a `char`. -/
structure Buf where
  blocknr : BlockNr
  dev : DevNr
  dirt : Bool
  count : Int8
  deriving DecidableEq

abbrev BufIdx := Fin nrBufs

structure BufCache where
  buf : BufIdx → Buf
  /-- `b_next`, `b_prev`, `front` and `rear`. -/
  lru : Ptrs BufIdx
  /-- `buf_hash` and `b_hash`. -/
  hash : Buckets (Fin kNrBufHash) BufIdx
  bufsInUse : ℤ

instance : NeZero kNrBufHash := ⟨by decide⟩

def hashIndex (block : BlockNr) : Fin kNrBufHash :=
  ⟨block.toNat &&& (kNrBufHash - 1), Nat.lt_of_le_of_lt Nat.and_le_right (by decide)⟩

namespace BufCache

variable (c : BufCache)

def setBuf (b : BufIdx) (f : Buf) : BufCache := { c with buf := Function.update c.buf b f }

def removeFromLru (b : BufIdx) : BufCache := { c with lru := c.lru.unlink b }

def insertAtFront (b : BufIdx) : BufCache := { c with lru := c.lru.prepend b }

def insertAtRear (b : BufIdx) : BufCache := { c with lru := c.lru.pushBack b }

/-- The chain searched is the one of the buffer's current block number. -/
def removeFromHash (b : BufIdx) : BufCache :=
  { c with hash := c.hash.erase (hashIndex (c.buf b).blocknr) b nrBufs }

def insertIntoHash (b : BufIdx) : BufCache := { c with hash := c.hash.push (hashIndex (c.buf b).blocknr) b }

def rwBlock (io : DevIo) (b : BufIdx) (flag : RwFlag) : BufCache × Bool :=
  (if io flag && flag == .writing then c.setBuf b { c.buf b with dirt := false } else c, io flag)

def writeBack (io : DevIo) (b : BufIdx) : BufCache := if (c.buf b).dirt then (c.rwBlock io b .writing).1 else c

/-- A read through `rw_block` fills only the data, which is left out; what
`get_block` learns is whether it succeeded. -/
def getBlock (io : DevIo) (dev : DevNr) (block : BlockNr) (mode : IoMode) : BufCache × Option BufIdx :=
  match findFrom (fun b => (c.buf b).blocknr == block && (c.buf b).dev == dev) c.hash.next nrBufs
      (c.hash.heads (hashIndex block)) with
  | some b =>
    let count := (c.buf b).count + 1
    let c := { c.setBuf b { c.buf b with count } with
      bufsInUse := if count = 1 then c.bufsInUse + 1 else c.bufsInUse }
    ((c.removeFromLru b).insertAtRear b, some b)
  | none =>
    match findFrom (fun b => (c.buf b).count == 0) c.lru.next nrBufs c.lru.head with
    | none => (c, none)
    | some b =>
      let c := ((c.removeFromLru b).removeFromHash b).writeBack io b
      let c := c.setBuf b ⟨block, dev, false, 1⟩
      let ok := if mode = .normal ∧ dev ≠ kNoDev then (c.rwBlock io b .reading).2 else true
      if ok then ({ (c.insertIntoHash b).insertAtRear b with bufsInUse := c.bufsInUse + 1 }, some b)
      else
        let c := c.setBuf b ⟨kNoBlock, kNoDev, false, 0⟩
        ((c.insertAtFront b).insertIntoHash b, none)

def putBlock (io : DevIo) : Option BufIdx → BlockType → BufCache
  | none, _ => c
  | some b, blockType =>
    if (c.buf b).count = 0 then c
    else
      let count := (c.buf b).count - 1
      let c := c.setBuf b { c.buf b with count }
      if 0 < count then c
      else
        let c := { c with bufsInUse := c.bufsInUse - 1 }
        let c := if hasFlag blockType .writeImmediate then c.writeBack io b else c
        let c := c.removeFromLru b
        if hasFlag blockType .oneShot then c.insertAtFront b else c.insertAtRear b

def invalidateBuf (dev : DevNr) (c : BufCache) (b : BufIdx) : BufCache :=
  if (c.buf b).dev = dev then
    let c := c.removeFromHash b
    c.setBuf b { c.buf b with dev := kNoDev, blocknr := kNoBlock, dirt := false }
  else c

def invalidate (dev : DevNr) : BufCache := (List.finRange nrBufs).foldl (invalidateBuf dev) c

end BufCache

def bufPoolNext (b : BufIdx) : Option BufIdx := if h : b.val + 1 < nrBufs then some ⟨b.val + 1, h⟩ else none

/-- `buf_pool()`: every buffer free, on the LRU list in array order and on
the chain of `NO_BLOCK`, the other chains empty. -/
def bufPool : BufCache where
  buf := fun _ => ⟨kNoBlock, kNoDev, false, 0⟩
  lru := ⟨bufPoolNext, fun b => if h : 0 < b.val then some ⟨b.val - 1, by omega⟩ else none,
    some ⟨0, by decide⟩, some ⟨nrBufs - 1, by decide⟩⟩
  hash := ⟨fun k => if k = hashIndex kNoBlock then some ⟨0, by decide⟩ else none, bufPoolNext⟩
  bufsInUse := 0

inductive CacheOp
  | getBlock (io : DevIo) (dev : DevNr) (block : BlockNr) (mode : IoMode)
  | putBlock (io : DevIo) (bp : Option BufIdx) (blockType : BlockType)
  | invalidate (dev : DevNr)

namespace BufCache

def step (c : BufCache) : CacheOp → BufCache
  | .getBlock io dev block mode => (c.getBlock io dev block mode).1
  | .putBlock io bp blockType => c.putBlock io bp blockType
  | .invalidate dev => c.invalidate dev

def run (c : BufCache) (ops : List CacheOp) : BufCache := ops.foldl step c

end BufCache

/-! ### The invariant -/

def label (f : Buf) : DevNr × BlockNr := (f.dev, f.blocknr)

def LruFull (d : Ptrs BufIdx) : Prop := ∃ l, d.Queue l ∧ ∀ b, b ∈ l

/-- What `get_block` and `put_block` do to the LRU list: nothing, or one
buffer moved to the rear or to the front. -/
def Moved (d d' : Ptrs BufIdx) : Prop := d' = d ∨ ∃ b, d' = (d.unlink b).pushBack b ∨ d' = (d.unlink b).prepend b

namespace BufCache

/-- The chains read as `lists`; a buffer is only on the chain of its block
number, and every labelled buffer is on it. -/
structure Hashed (c : BufCache) (lists : Fin kNrBufHash → List BufIdx) : Prop where
  holds : c.hash.Holds lists
  home : ∀ k b, b ∈ lists k → hashIndex (c.buf b).blocknr = k
  labelled : ∀ b, (c.buf b).dev ≠ kNoDev → b ∈ lists (hashIndex (c.buf b).blocknr)

structure Wf (c : BufCache) : Prop where
  lru : LruFull c.lru
  hashed : ∃ lists, c.Hashed lists
  unique : ∀ b b', (c.buf b).dev ≠ kNoDev → label (c.buf b') = label (c.buf b) → b' = b

variable {c : BufCache} {b v : BufIdx} {f : Buf} {lists : Fin kNrBufHash → List BufIdx}

section Fields

variable (c b f)

@[simp] theorem setBuf_buf : (c.setBuf b f).buf = Function.update c.buf b f := rfl
@[simp] theorem setBuf_lru : (c.setBuf b f).lru = c.lru := rfl
@[simp] theorem setBuf_hash : (c.setBuf b f).hash = c.hash := rfl
@[simp] theorem removeFromLru_buf : (c.removeFromLru b).buf = c.buf := rfl
@[simp] theorem removeFromLru_lru : (c.removeFromLru b).lru = c.lru.unlink b := rfl
@[simp] theorem removeFromLru_hash : (c.removeFromLru b).hash = c.hash := rfl
@[simp] theorem insertAtFront_buf : (c.insertAtFront b).buf = c.buf := rfl
@[simp] theorem insertAtFront_lru : (c.insertAtFront b).lru = c.lru.prepend b := rfl
@[simp] theorem insertAtFront_hash : (c.insertAtFront b).hash = c.hash := rfl
@[simp] theorem insertAtRear_buf : (c.insertAtRear b).buf = c.buf := rfl
@[simp] theorem insertAtRear_lru : (c.insertAtRear b).lru = c.lru.pushBack b := rfl
@[simp] theorem insertAtRear_hash : (c.insertAtRear b).hash = c.hash := rfl
@[simp] theorem removeFromHash_buf : (c.removeFromHash b).buf = c.buf := rfl
@[simp] theorem removeFromHash_lru : (c.removeFromHash b).lru = c.lru := rfl
@[simp] theorem removeFromHash_hash :
    (c.removeFromHash b).hash = c.hash.erase (hashIndex (c.buf b).blocknr) b nrBufs := rfl
@[simp] theorem insertIntoHash_buf : (c.insertIntoHash b).buf = c.buf := rfl
@[simp] theorem insertIntoHash_lru : (c.insertIntoHash b).lru = c.lru := rfl
@[simp] theorem insertIntoHash_hash : (c.insertIntoHash b).hash = c.hash.push (hashIndex (c.buf b).blocknr) b := rfl

/-- A write-back only cleans the buffer, so relabelling it right after
forgets it. -/
@[simp] theorem setBuf_writeBack (io : DevIo) : (c.writeBack io b).setBuf b f = c.setBuf b f := by
  unfold writeBack rwBlock
  split_ifs <;> simp [setBuf]

@[simp] theorem writeBack_lru (io : DevIo) : (c.writeBack io b).lru = c.lru := by
  unfold writeBack rwBlock
  split_ifs <;> rfl

@[simp] theorem writeBack_hash (io : DevIo) : (c.writeBack io b).hash = c.hash := by
  unfold writeBack rwBlock
  split_ifs <;> rfl

end Fields

@[simp] theorem label_count (n : Int8) : label { f with count := n } = label f := rfl

@[simp] theorem label_dirt (dirt : Bool) : label { f with dirt } = label f := rfl

theorem label_setBuf (same : label f = label (c.buf b)) (b' : BufIdx) :
    label ((c.setBuf b f).buf b') = label (c.buf b') := by
  by_cases hb : b' = b
  · subst hb
    simpa using same
  · simp [Function.update_of_ne hb]

theorem label_writeBack (io : DevIo) (b' : BufIdx) : label ((c.writeBack io b).buf b') = label (c.buf b') := by
  unfold writeBack rwBlock
  split_ifs
  · exact label_setBuf (c := c) (f := { c.buf b with dirt := false }) rfl b'
  · rfl
  · rfl

theorem hashIndex_eq_ofNat (block : BlockNr) : hashIndex block = Fin.ofNat kNrBufHash block.toNat := by
  ext
  exact Nat.and_two_pow_sub_one_eq_mod block.toNat 5

theorem length_le_nrBufs {l : List BufIdx} (nodup : l.Nodup) : l.length ≤ nrBufs := by
  simpa using nodup.length_le_card

theorem Hashed.findFrom_heads (h : c.Hashed lists) (p : BufIdx → Bool) (k : Fin kNrBufHash) :
    findFrom p c.hash.next nrBufs (c.hash.heads k) = (lists k).find? p := by
  rw [findFrom_eq_find?_walk, walk_of_chain (h.holds.chain k) (length_le_nrBufs (h.holds.nodup k))]

theorem LruFull.moved {d d' : Ptrs BufIdx} (h : LruFull d) (moved : Moved d d') : LruFull d' := by
  obtain ⟨l, queue, full⟩ := h
  rcases moved with rfl | ⟨b, rfl | rfl⟩
  · exact ⟨l, queue, full⟩
  · refine ⟨l.erase b ++ [b], queue.unlink_pushBack (full b), fun b' => ?_⟩
    by_cases same : b' = b
    · simp [same]
    · exact List.mem_append_left _ ((List.mem_erase_of_ne same).mpr (full b'))
  · refine ⟨b :: l.erase b, queue.unlink_prepend (full b), fun b' => ?_⟩
    by_cases same : b' = b
    · simp [same]
    · exact List.mem_cons_of_mem _ ((List.mem_erase_of_ne same).mpr (full b'))

theorem Hashed.congr (h : c.Hashed lists) {c' : BufCache} (hash : c'.hash = c.hash)
    (labels : ∀ b, label (c'.buf b) = label (c.buf b)) : c'.Hashed lists := by
  have dev : ∀ b, (c'.buf b).dev = (c.buf b).dev := fun b => congrArg Prod.fst (labels b)
  have blocknr : ∀ b, (c'.buf b).blocknr = (c.buf b).blocknr := fun b => congrArg Prod.snd (labels b)
  refine ⟨hash ▸ h.holds, fun k b mem => ?_, fun b named => ?_⟩
  · rw [blocknr]
    exact h.home k b mem
  · rw [blocknr]
    exact h.labelled b (dev b ▸ named)

theorem Hashed.erase (h : c.Hashed lists) {c' : BufCache} (v : BufIdx) (f : Buf) (free : f.dev = kNoDev)
    (buf : c'.buf = Function.update c.buf v f) (hash : c'.hash = c.hash.erase (hashIndex (c.buf v).blocknr) v nrBufs) :
    c'.Hashed (Function.update lists (hashIndex (c.buf v).blocknr) ((lists (hashIndex (c.buf v).blocknr)).erase v)) := by
  have home : ∀ k, v ∈ lists k → k = hashIndex (c.buf v).blocknr := fun k mem => (h.home k v mem).symm
  have gone := Chains.Buckets.not_mem_update_erase home (h.holds.nodup _)
  refine ⟨hash ▸ h.holds.erase home (length_le_nrBufs (h.holds.nodup _)), fun k b mem => ?_, fun b named => ?_⟩
  · have ne : b ≠ v := fun e => gone k (e ▸ mem)
    rw [buf, Function.update_of_ne ne]
    exact h.home k b (Chains.Buckets.mem_of_mem_update_erase mem)
  · have ne : b ≠ v := by
      rintro rfl
      rw [buf, Function.update_self] at named
      exact named free
    rw [buf, Function.update_of_ne ne] at named ⊢
    exact Chains.Buckets.mem_update_erase_of_ne ne (h.labelled b named)

theorem Hashed.push (h : c.Hashed lists) {c' : BufCache} (v : BufIdx) (f : Buf) (absent : ∀ k, v ∉ lists k)
    (buf : c'.buf = Function.update c.buf v f) (hash : c'.hash = c.hash.push (hashIndex f.blocknr) v) :
    c'.Hashed (Function.update lists (hashIndex f.blocknr) (v :: lists (hashIndex f.blocknr))) := by
  refine ⟨hash ▸ h.holds.push absent, fun k b mem => ?_, fun b named => ?_⟩
  · rcases Chains.Buckets.mem_update_cons.mp mem with ⟨at_k, rfl⟩ | old
    · rw [buf, Function.update_self, at_k]
    · have ne : b ≠ v := fun e => absent k (e ▸ old)
      rw [buf, Function.update_of_ne ne]
      exact h.home k b old
  · by_cases same : b = v
    · subst same
      rw [buf, Function.update_self]
      exact Chains.Buckets.mem_update_cons.mpr (.inl ⟨rfl, rfl⟩)
    · rw [buf, Function.update_of_ne same] at named ⊢
      exact Chains.Buckets.mem_update_cons.mpr (.inr (h.labelled b named))

theorem Wf.congr (hw : c.Wf) {c' : BufCache} (lru : Moved c.lru c'.lru) (hash : c'.hash = c.hash)
    (labels : ∀ b, label (c'.buf b) = label (c.buf b)) : c'.Wf := by
  obtain ⟨lists, hashed⟩ := hw.hashed
  have dev : ∀ b, (c'.buf b).dev = (c.buf b).dev := fun b => congrArg Prod.fst (labels b)
  refine ⟨LruFull.moved hw.lru lru, ⟨lists, hashed.congr hash labels⟩, fun b b' named same => ?_⟩
  rw [labels, labels] at same
  exact hw.unique b b' (dev b ▸ named) same

theorem Wf.unhash (hw : c.Wf) {c' : BufCache} (v : BufIdx) (f : Buf) (free : f.dev = kNoDev)
    (lru : c'.lru = c.lru) (buf : c'.buf = Function.update c.buf v f)
    (hash : c'.hash = c.hash.erase (hashIndex (c.buf v).blocknr) v nrBufs) : c'.Wf := by
  obtain ⟨lists, hashed⟩ := hw.hashed
  refine ⟨lru ▸ hw.lru, ⟨_, hashed.erase v f free buf hash⟩, fun b b' named same => ?_⟩
  have ne : b ≠ v := by
    rintro rfl
    rw [buf, Function.update_self] at named
    exact named free
  rw [buf, Function.update_of_ne ne] at named same
  by_cases hv : b' = v
  · subst hv
    rw [Function.update_self] at same
    have devs : f.dev = (c.buf b).dev := congrArg Prod.fst same
    exact (named (devs.symm.trans free)).elim
  · rw [Function.update_of_ne hv] at same
    exact hw.unique b b' named same

theorem Wf.relabel (hw : c.Wf) {c' : BufCache} (v : BufIdx) (f : Buf) (lru : Moved c.lru c'.lru)
    (buf : c'.buf = Function.update c.buf v f)
    (hash : c'.hash = (c.hash.erase (hashIndex (c.buf v).blocknr) v nrBufs).push (hashIndex f.blocknr) v)
    (fresh : f.dev ≠ kNoDev → ∀ b, label (c.buf b) ≠ label f) : c'.Wf := by
  obtain ⟨lists, hashed⟩ := hw.hashed
  let unhashed : BufCache :=
    ⟨Function.update c.buf v { f with dev := kNoDev }, c.lru, c.hash.erase (hashIndex (c.buf v).blocknr) v nrBufs,
      c.bufsInUse⟩
  have erased : unhashed.Hashed _ := hashed.erase v { f with dev := kNoDev } rfl rfl rfl
  have gone := Chains.Buckets.not_mem_update_erase (fun k mem => (hashed.home k v mem).symm) (hashed.holds.nodup _)
  have pushed := erased.push v f gone (by rw [buf, Function.update_idem]) hash
  refine ⟨LruFull.moved hw.lru lru, ⟨_, pushed⟩, fun b b' named same => ?_⟩
  rw [buf] at named same
  by_cases hb : b = v <;> by_cases hb' : b' = v
  · exact hb'.trans hb.symm
  · subst hb
    rw [Function.update_self] at named same
    rw [Function.update_of_ne hb'] at same
    exact absurd same (fresh named b')
  · subst hb'
    rw [Function.update_self, Function.update_of_ne hb] at same
    rw [Function.update_of_ne hb] at named
    have devs : f.dev = (c.buf b).dev := congrArg Prod.fst same
    exact absurd same.symm (fresh (fun e => named (devs.symm.trans e)) b)
  · rw [Function.update_of_ne hb] at named same
    rw [Function.update_of_ne hb'] at same
    exact hw.unique b b' named same

/-! ### The calls -/

theorem getBlock_cases {c' : BufCache} (io : DevIo) (dev : DevNr) (block : BlockNr) (mode : IoMode)
    (h : (c.getBlock io dev block mode).1 = c') :
    c' = c ∨
      (∃ b, c'.lru = (c.lru.unlink b).pushBack b ∧ c'.hash = c.hash ∧ ∀ b', label (c'.buf b') = label (c.buf b')) ∨
      ∃ v f, (c.buf v).count = 0 ∧ (label f = (dev, block) ∨ label f = (kNoDev, kNoBlock)) ∧
        findFrom (fun b => (c.buf b).blocknr == block && (c.buf b).dev == dev) c.hash.next nrBufs
          (c.hash.heads (hashIndex block)) = none ∧
        Moved c.lru c'.lru ∧ c'.buf = Function.update c.buf v f ∧
        c'.hash = (c.hash.erase (hashIndex (c.buf v).blocknr) v nrBufs).push (hashIndex f.blocknr) v := by
  subst h
  unfold getBlock
  split
  · rename_i b _
    exact .inr (.inl ⟨b, rfl, rfl, label_setBuf (c := c) (f := { c.buf b with count := (c.buf b).count + 1 }) rfl⟩)
  · rename_i missed
    split
    · exact .inl rfl
    · rename_i v idle
      have free : (c.buf v).count = 0 := by simpa using findFrom_some idle
      have read : ∀ c : BufCache, (c.rwBlock io v .reading).2 = io .reading := fun _ => rfl
      dsimp only
      simp only [read]
      by_cases ok : (if mode = .normal ∧ dev ≠ kNoDev then io .reading else true) = true
      · rw [if_pos ok]
        refine .inr (.inr ⟨v, ⟨block, dev, false, 1⟩, free, .inl rfl, missed, .inr ⟨v, .inl ?_⟩, ?_, ?_⟩) <;> simp
      · rw [if_neg ok]
        refine .inr (.inr ⟨v, ⟨kNoBlock, kNoDev, false, 0⟩, free, .inr rfl, missed, .inr ⟨v, .inr ?_⟩, ?_, ?_⟩) <;>
          simp

theorem label_getBlock_of_busy (io : DevIo) (dev : DevNr) (block : BlockNr) (mode : IoMode)
    (busy : (c.buf b).count ≠ 0) : label ((c.getBlock io dev block mode).1.buf b) = label (c.buf b) := by
  rcases getBlock_cases io dev block mode rfl with same | ⟨_, -, -, labels⟩ | ⟨v, f, free, -, -, -, buf, -⟩
  · rw [same]
  · exact labels b
  · have ne : b ≠ v := fun e => busy (e ▸ free)
    rw [buf, Function.update_of_ne ne]

theorem Wf.getBlock (hw : c.Wf) (io : DevIo) (dev : DevNr) (block : BlockNr) (mode : IoMode) :
    (c.getBlock io dev block mode).1.Wf := by
  rcases getBlock_cases io dev block mode rfl with same | ⟨b, lru, hash, labels⟩ |
    ⟨v, f, -, named, missed, lru, buf, hash⟩
  · rw [same]
    exact hw
  · exact hw.congr (.inr ⟨b, .inl lru⟩) hash labels
  · obtain ⟨lists, hashed⟩ := hw.hashed
    refine hw.relabel v f lru buf hash fun labelled b same => ?_
    have asked : label f = (dev, block) := named.resolve_right fun e => labelled (congrArg Prod.fst e)
    have fDev : f.dev = dev := congrArg Prod.fst asked
    have bDev : (c.buf b).dev = dev := congrArg Prod.fst (same.trans asked)
    have bBlock : (c.buf b).blocknr = block := congrArg Prod.snd (same.trans asked)
    have onChain := hashed.labelled b (by rw [bDev, ← fDev]; exact labelled)
    rw [bBlock] at onChain
    rw [hashed.findFrom_heads, List.find?_eq_none] at missed
    exact missed b onChain (by simp [bDev, bBlock])

theorem putBlock_cases (io : DevIo) (bp : Option BufIdx) (blockType : BlockType) :
    Moved c.lru (c.putBlock io bp blockType).lru ∧ (c.putBlock io bp blockType).hash = c.hash ∧
      ∀ b', label ((c.putBlock io bp blockType).buf b') = label (c.buf b') := by
  cases bp with
  | none => exact ⟨.inl rfl, rfl, fun _ => rfl⟩
  | some b =>
    have counted : ∀ b', label ((c.setBuf b { c.buf b with count := (c.buf b).count - 1 }).buf b') =
        label (c.buf b') := label_setBuf rfl
    simp only [putBlock]
    split_ifs with zero released writeImmediate oneShot
    · exact ⟨.inl rfl, rfl, fun _ => rfl⟩
    · exact ⟨.inl rfl, rfl, counted⟩
    all_goals
      refine ⟨.inr ⟨b, ?_⟩, by simp, fun b' => ?_⟩
      · simp
      · simpa [label_writeBack] using counted b'

theorem Wf.putBlock (hw : c.Wf) (io : DevIo) (bp : Option BufIdx) (blockType : BlockType) :
    (c.putBlock io bp blockType).Wf :=
  let ⟨lru, hash, labels⟩ := putBlock_cases io bp blockType
  hw.congr lru hash labels

theorem Wf.invalidateBuf (hw : c.Wf) (dev : DevNr) (b : BufIdx) : (BufCache.invalidateBuf dev c b).Wf := by
  unfold BufCache.invalidateBuf
  split_ifs
  · exact hw.unhash b _ rfl rfl rfl rfl
  · exact hw

theorem Wf.invalidate (hw : c.Wf) (dev : DevNr) : (c.invalidate dev).Wf := by
  suffices loop : ∀ (bs : List BufIdx) (c : BufCache), c.Wf → (bs.foldl (BufCache.invalidateBuf dev) c).Wf from
    loop _ c hw
  intro bs
  induction bs with
  | nil => exact fun c hw => hw
  | cons b rest ih => exact fun c hw => ih _ (hw.invalidateBuf dev b)

theorem Wf.step (hw : c.Wf) : (op : CacheOp) → (c.step op).Wf
  | .getBlock io dev block mode => hw.getBlock io dev block mode
  | .putBlock io bp blockType => hw.putBlock io bp blockType
  | .invalidate dev => hw.invalidate dev

theorem Wf.run (hw : c.Wf) (ops : List CacheOp) : (c.run ops).Wf := by
  induction ops generalizing c with
  | nil => exact hw
  | cons op rest ih => exact ih (hw.step op)

def bufPoolLists (k : Fin kNrBufHash) : List BufIdx := if k = hashIndex kNoBlock then List.finRange nrBufs else []

theorem mem_bufPoolLists {k : Fin kNrBufHash} {b : BufIdx} (mem : b ∈ bufPoolLists k) : k = hashIndex kNoBlock := by
  by_contra other
  simp [bufPoolLists, other] at mem

theorem Wf.bufPool : bufPool.Wf := by
  refine ⟨⟨List.finRange nrBufs, by decide, List.mem_finRange⟩, ⟨bufPoolLists, ⟨⟨fun k => ?_, fun k => ?_,
    fun k k' b mem mem' => (mem_bufPoolLists mem).trans (mem_bufPoolLists mem').symm⟩,
    fun k b mem => (mem_bufPoolLists mem).symm, fun b named => absurd rfl named⟩⟩, fun b b' named => absurd rfl named⟩
  · by_cases first : k = hashIndex kNoBlock
    · subst first
      simp only [bufPoolLists, Fs.bufPool, if_true]
      decide
    · simp [bufPoolLists, Fs.bufPool, first, Chains.chain_nil]
  · by_cases first : k = hashIndex kNoBlock
    · simp [bufPoolLists, first, List.nodup_finRange]
    · simp [bufPoolLists, first]

end BufCache

/-- From `buf_pool()`, after any calls of `get_block`, `put_block` and
`invalidate`: the LRU list from `front` to `rear` is doubly linked and holds
every buffer exactly once; no two buffers carry one label with a device; a
labelled buffer is on the chain of `buf_hash[block mod kNrBufHash]`; and
`get_block` relabels no buffer whose count is positive. -/
theorem buffer_cache_holds_each_block_once (ops : List CacheOp) :
    let c := bufPool.run ops
    (∃ l, c.lru.Queue l ∧ ∀ b, l.count b = 1) ∧
      (∀ b b', (c.buf b).dev ≠ kNoDev → (c.buf b').dev = (c.buf b).dev →
        (c.buf b').blocknr = (c.buf b).blocknr → b' = b) ∧
      (∀ b, (c.buf b).dev ≠ kNoDev →
        b ∈ walk c.hash.next nrBufs (c.hash.heads (Fin.ofNat kNrBufHash (c.buf b).blocknr.toNat))) ∧
      ∀ io dev block mode b, 0 < (c.buf b).count →
        ((c.getBlock io dev block mode).1.buf b).dev = (c.buf b).dev ∧
          ((c.getBlock io dev block mode).1.buf b).blocknr = (c.buf b).blocknr := by
  intro c
  have hw : c.Wf := BufCache.Wf.bufPool.run ops
  obtain ⟨l, queue, full⟩ := hw.lru
  obtain ⟨lists, hashed⟩ := hw.hashed
  refine ⟨⟨l, queue, fun b => List.count_eq_one_of_mem queue.nodup (full b)⟩, fun b b' named dev blocknr => ?_,
    fun b named => ?_, fun io dev block mode b busy => ?_⟩
  · exact hw.unique b b' named (Prod.ext dev blocknr)
  · rw [← BufCache.hashIndex_eq_ofNat,
      walk_of_chain (hashed.holds.chain _) (BufCache.length_le_nrBufs (hashed.holds.nodup _))]
    exact hashed.labelled b named
  · have held : (c.buf b).count ≠ 0 := by
      intro zero
      rw [zero] at busy
      exact absurd busy (by decide)
    have same := BufCache.label_getBlock_of_busy io dev block mode held
    exact ⟨congrArg Prod.fst same, congrArg Prod.snd same⟩

end Xinim.Fs
