import Xinim.Data.Bytes
import Xinim.Fs.Cache

/-! The zone map of an inode (fs/read.cpp `read_map`, fs/write.cpp
`write_map`): seven direct zones, a single indirect zone and a double
indirect zone in `i_zone`, a zone being `2^scale` blocks. The device is a map
from block numbers to blocks, each read as `b_ind`, its `NR_INDIRECTS` zone
numbers; a change to a buffer is a change to the device (the indirect blocks
are released with `BlockType::Indirect`, which writes them at once).
`alloc_zone` is an oracle that sees the inode and the device. Positions are
nonnegative. `i_dirt` and `i_modtime` are left out. -/

namespace Xinim.Fs

def nrZoneNums : ℕ := 9

def nrDzoneNum : ℕ := nrZoneNums - 2

def blockSize : ℕ := 1024

def zoneNumSize : ℕ := 2

def nrIndirects : ℕ := blockSize / zoneNumSize

def maxZones : ℕ := nrDzoneNum + nrIndirects + nrIndirects * nrIndirects

abbrev ZoneNr := UInt16

def kNoZone : ZoneNr := 0

abbrev IndBlock := Fin nrIndirects → ZoneNr

abbrev Disk := BlockNr → IndBlock

structure Inode where
  zone : Fin nrZoneNums → ZoneNr

def Inode.setZone (ino : Inode) (i : Fin nrZoneNums) (z : ZoneNr) : Inode := ⟨Function.update ino.zone i z⟩

def singleSlot : Fin nrZoneNums := ⟨nrDzoneNum, by decide⟩

def doubleSlot : Fin nrZoneNums := ⟨nrDzoneNum + 1, by decide⟩

def zoneBlock (scale : ℕ) (z : ZoneNr) : BlockNr := UInt16.ofNat (z.toNat <<< scale)

def blockOf (scale : ℕ) (z : ZoneNr) (boff : ℕ) : BlockNr := UInt16.ofNat ((z.toNat <<< scale) + boff)

def zeroBlock (disk : Disk) (b : BlockNr) : Disk := Function.update disk b fun _ => kNoZone

def setInd (disk : Disk) (b : BlockNr) (i : Fin nrIndirects) (z : ZoneNr) : Disk :=
  Function.update disk b (Function.update (disk b) i z)

/-- `bp->b_ind[i]`; an index past the block reads outside the buffer. -/
def indAt (blk : IndBlock) (i : ℕ) : Except Fault ZoneNr :=
  if h : i < nrIndirects then .ok (blk ⟨i, h⟩) else .error .outOfBounds

/-- The tail of `read_map` from "'z' is zone number for single indirect
block; 'excess' is index into it". -/
def readSingle (scale : ℕ) (disk : Disk) (z : ZoneNr) (excess boff : ℕ) : Except Fault BlockNr :=
  if z = kNoZone then .ok kNoBlock
  else do
    let z ← indAt (disk (zoneBlock scale z)) excess
    if z = kNoZone then pure kNoBlock else pure (blockOf scale z boff)

def readMap (scale : ℕ) (ino : Inode) (disk : Disk) (position : ℕ) : Except Fault BlockNr :=
  let blockPos := position / blockSize
  let zone := blockPos >>> scale
  let boff := blockPos - (zone <<< scale)
  if h : zone < nrDzoneNum then
    let z := ino.zone ⟨zone, Nat.lt_of_lt_of_le h (by decide)⟩
    if z = kNoZone then .ok kNoBlock else .ok (blockOf scale z boff)
  else
    let excess := zone - nrDzoneNum
    if excess < nrIndirects then readSingle scale disk (ino.zone singleSlot) excess boff
    else
      let z := ino.zone doubleSlot
      if z = kNoZone then .ok kNoBlock
      else
        let excess := excess - nrIndirects
        do
          let z ← indAt (disk (zoneBlock scale z)) (excess / nrIndirects)
          readSingle scale disk z (excess % nrIndirects) boff

inductive MapStatus
  | ok
  | errCode
  | efbig
  deriving DecidableEq

inductive ZoneSlot
  | inode (i : Fin nrZoneNums)
  | ind (b : BlockNr) (i : Fin nrIndirects)

def ZoneSlot.get (ino : Inode) (disk : Disk) : ZoneSlot → ZoneNr
  | .inode i => ino.zone i
  | .ind b i => disk b i

def ZoneSlot.set (ino : Inode) (disk : Disk) : ZoneSlot → ZoneNr → Inode × Disk
  | .inode i, z => (ino.setZone i z, disk)
  | .ind b i, z => (ino, setInd disk b i z)

abbrev AllocZone := Inode → Disk → ZoneNr

section WriteMap

variable (alloc : AllocZone) (scale : ℕ)

/-- From "'zp' now points to indirect block's zone number": zero the single
indirect block if it is new, then store the zone. -/
def fillSingle (ino : Inode) (disk : Disk) (ind : ZoneNr) (newInd : Bool) (excess : Fin nrIndirects)
    (newZone : ZoneNr) : MapStatus × Inode × Disk :=
  let b := zoneBlock scale ind
  let disk := if newInd then zeroBlock disk b else disk
  (.ok, ino, setInd disk b excess newZone)

/-- From "'zp' now points to place where indirect zone # goes": create the
single indirect block where there is none. -/
def writeSingle (ino : Inode) (disk : Disk) (zp : ZoneSlot) (excess : Fin nrIndirects) (newZone : ZoneNr) :
    MapStatus × Inode × Disk :=
  if zp.get ino disk = kNoZone then
    let z := alloc ino disk
    let stored := zp.set ino disk z
    if z = kNoZone then (.errCode, stored.1, stored.2) else fillSingle scale stored.1 stored.2 z true excess newZone
  else fillSingle scale ino disk (zp.get ino disk) false excess newZone

def writeDouble (ino : Inode) (disk : Disk) (dbl : ZoneNr) (newDbl : Bool) (excess : ℕ) (newZone : ZoneNr) :
    MapStatus × Inode × Disk :=
  let index := excess / nrIndirects
  if h : index < nrIndirects then
    let b := zoneBlock scale dbl
    let disk := if newDbl then zeroBlock disk b else disk
    writeSingle alloc scale ino disk (.ind b ⟨index, h⟩) ⟨excess % nrIndirects, Nat.mod_lt _ (by decide)⟩ newZone
  else (.efbig, ino, disk)

def writeMap (ino : Inode) (disk : Disk) (position : ℕ) (newZone : ZoneNr) : MapStatus × Inode × Disk :=
  let zone := (position / blockSize) >>> scale
  if h : zone < nrDzoneNum then (.ok, ino.setZone ⟨zone, Nat.lt_of_lt_of_le h (by decide)⟩ newZone, disk)
  else
    let excess := zone - nrDzoneNum
    if h' : excess < nrIndirects then writeSingle alloc scale ino disk (.inode singleSlot) ⟨excess, h'⟩ newZone
    else if ino.zone doubleSlot = kNoZone then
      let z := alloc ino disk
      if z = kNoZone then (.errCode, ino, disk)
      else writeDouble alloc scale (ino.setZone doubleSlot z) disk z true (excess - nrIndirects) newZone
    else writeDouble alloc scale ino disk (ino.zone doubleSlot) false (excess - nrIndirects) newZone

end WriteMap

/-! ### The zone map a file records -/

section ZoneMap

variable (scale : ℕ)

def indirect (disk : Disk) (z : ZoneNr) (i : Fin nrIndirects) : ZoneNr :=
  if z = kNoZone then kNoZone else disk (zoneBlock scale z) i

/-- The zone holding zone index `n` of the file, as the inode and its indirect
blocks record it; `kNoZone` for none. -/
def lookupZone (ino : Inode) (disk : Disk) (n : ℕ) : ZoneNr :=
  if h : n < nrDzoneNum then ino.zone ⟨n, Nat.lt_of_lt_of_le h (by decide)⟩
  else if h' : n - nrDzoneNum < nrIndirects then indirect scale disk (ino.zone singleSlot) ⟨n - nrDzoneNum, h'⟩
  else if h'' : (n - nrDzoneNum - nrIndirects) / nrIndirects < nrIndirects then
    indirect scale disk (indirect scale disk (ino.zone doubleSlot) ⟨_, h''⟩)
      ⟨(n - nrDzoneNum - nrIndirects) % nrIndirects, Nat.mod_lt _ (by decide)⟩
  else kNoZone

def zoneBlockAt (z : ZoneNr) (boff : ℕ) : BlockNr := if z = kNoZone then kNoBlock else blockOf scale z boff

end ZoneMap

section Arithmetic

theorem boff_eq (blockPos scale : ℕ) : blockPos - (blockPos >>> scale <<< scale) = blockPos % 2 ^ scale := by
  have split := Nat.mod_add_div blockPos (2 ^ scale)
  rw [Nat.shiftRight_eq_div_pow, Nat.shiftLeft_eq, Nat.mul_comm]
  omega

end Arithmetic

theorem readMap_eq_lookupZone (scale : ℕ) (ino : Inode) (disk : Disk) {p : ℕ}
    (inRange : (p / blockSize) >>> scale < maxZones) :
    readMap scale ino disk p =
      .ok (zoneBlockAt scale (lookupZone scale ino disk ((p / blockSize) >>> scale)) ((p / blockSize) % 2 ^ scale)) := by
  simp only [readMap, lookupZone, boff_eq]
  by_cases direct : (p / blockSize) >>> scale < nrDzoneNum
  · rw [dif_pos direct, dif_pos direct, zoneBlockAt]
    split_ifs <;> rfl
  · rw [dif_neg direct, dif_neg direct]
    by_cases single : (p / blockSize) >>> scale - nrDzoneNum < nrIndirects
    · rw [if_pos single, dif_pos single]
      simp only [readSingle, zoneBlockAt, indirect, indAt, single, dif_pos, bind, Except.bind, pure, Except.pure]
      split_ifs <;> simp_all
    · have index : ((p / blockSize) >>> scale - nrDzoneNum - nrIndirects) / nrIndirects < nrIndirects := by
        unfold maxZones at inRange
        unfold nrDzoneNum nrZoneNums nrIndirects blockSize zoneNumSize at *
        omega
      rw [if_neg single, dif_neg single, dif_pos index]
      by_cases none : ino.zone doubleSlot = kNoZone
      · simp [zoneBlockAt, indirect, none]
      · simp only [if_neg none, indirect, indAt, index, dif_pos, bind, Except.bind, readSingle, zoneBlockAt, pure,
          Except.pure, Nat.mod_lt _ (show 0 < nrIndirects by decide)]
        split_ifs <;> simp_all

/-! ### Zones a file refers to -/

section Assumptions

variable (scale : ℕ)

def entries (disk : Disk) (z : ZoneNr) : List ZoneNr :=
  if z = kNoZone then [] else List.ofFn (disk (zoneBlock scale z))

/-- Every zone number the file holds: its nine zones, the entries of its
single and double indirect blocks, and of the blocks the double one lists. -/
def fileZones (ino : Inode) (disk : Disk) : List ZoneNr :=
  List.ofFn ino.zone ++ entries scale disk (ino.zone singleSlot) ++ entries scale disk (ino.zone doubleSlot) ++
    (entries scale disk (ino.zone doubleSlot)).flatMap (entries scale disk)

def Refers (ino : Inode) (disk : Disk) (z : ZoneNr) : Prop := z ≠ kNoZone ∧ z ∈ fileZones scale ino disk

instance (ino : Inode) (disk : Disk) (z : ZoneNr) : Decidable (Refers scale ino disk z) :=
  inferInstanceAs (Decidable (z ≠ kNoZone ∧ z ∈ fileZones scale ino disk))

def Fits (z : ZoneNr) : Prop := z.toNat <<< scale < 2 ^ 16

/-- An `alloc_zone` that answers `NO_ZONE` or a zone no file refers to, whose
zones' blocks are numbered in 16 bits. -/
structure Fresh (alloc : AllocZone) : Prop where
  unreferenced : ∀ ino disk, alloc ino disk = kNoZone ∨ ¬ Refers scale ino disk (alloc ino disk)
  fits : ∀ ino disk, Fits scale (alloc ino disk)

/-- The file's indirect blocks are distinct and numbered in 16 bits: its
single and double indirect zones, and the zones the double one lists. -/
structure Tidy (ino : Inode) (disk : Disk) : Prop where
  single_ne_double : ino.zone singleSlot ≠ kNoZone → ino.zone singleSlot ≠ ino.zone doubleSlot
  listed_ne_single : ∀ j, indirect scale disk (ino.zone doubleSlot) j ≠ kNoZone →
    indirect scale disk (ino.zone doubleSlot) j ≠ ino.zone singleSlot
  listed_ne_double : ∀ j, indirect scale disk (ino.zone doubleSlot) j ≠ kNoZone →
    indirect scale disk (ino.zone doubleSlot) j ≠ ino.zone doubleSlot
  listed_inj : ∀ j j', indirect scale disk (ino.zone doubleSlot) j ≠ kNoZone →
    indirect scale disk (ino.zone doubleSlot) j = indirect scale disk (ino.zone doubleSlot) j' → j = j'
  fits_single : Fits scale (ino.zone singleSlot)
  fits_double : Fits scale (ino.zone doubleSlot)
  fits_listed : ∀ j, Fits scale (indirect scale disk (ino.zone doubleSlot) j)

end Assumptions

section Lemmas

variable {scale : ℕ} {ino : Inode} {disk : Disk}

@[simp] theorem indirect_kNoZone (disk : Disk) (j : Fin nrIndirects) : indirect scale disk kNoZone j = kNoZone := by
  simp [indirect]

theorem indirect_setInd (b : BlockNr) (i : Fin nrIndirects) (v z : ZoneNr) (j : Fin nrIndirects) :
    indirect scale (setInd disk b i v) z j =
      if z ≠ kNoZone ∧ zoneBlock scale z = b ∧ j = i then v else indirect scale disk z j := by
  by_cases none : z = kNoZone
  · simp [none]
  · by_cases here : zoneBlock scale z = b
    · by_cases same : j = i
      · simp [indirect, setInd, none, here, same]
      · simp [indirect, setInd, none, here, same]
    · simp [indirect, setInd, none, here]

theorem indirect_zeroBlock (b : BlockNr) (z : ZoneNr) (j : Fin nrIndirects) :
    indirect scale (zeroBlock disk b) z j = if z ≠ kNoZone ∧ zoneBlock scale z = b then kNoZone else indirect scale disk z j := by
  by_cases none : z = kNoZone
  · simp [none]
  · by_cases here : zoneBlock scale z = b
    · simp [indirect, zeroBlock, none, here]
    · simp [indirect, zeroBlock, none, here]

theorem indirect_setInd_of_ne {b : BlockNr} {z : ZoneNr} (other : z ≠ kNoZone → zoneBlock scale z ≠ b)
    (i : Fin nrIndirects) (v : ZoneNr) (j : Fin nrIndirects) :
    indirect scale (setInd disk b i v) z j = indirect scale disk z j := by
  rw [indirect_setInd, if_neg fun ⟨named, here, _⟩ => other named here]

theorem indirect_zeroBlock_of_ne {b : BlockNr} {z : ZoneNr} (other : z ≠ kNoZone → zoneBlock scale z ≠ b)
    (j : Fin nrIndirects) : indirect scale (zeroBlock disk b) z j = indirect scale disk z j := by
  rw [indirect_zeroBlock, if_neg fun ⟨named, here⟩ => other named here]

theorem indirect_zeroBlock_self {z : ZoneNr} (j : Fin nrIndirects) :
    indirect scale (zeroBlock disk (zoneBlock scale z)) z j = kNoZone := by
  by_cases none : z = kNoZone
  · simp [none]
  · simp [indirect_zeroBlock, none]

@[simp] theorem setZone_zone (ino : Inode) (i : Fin nrZoneNums) (z : ZoneNr) :
    (ino.setZone i z).zone = Function.update ino.zone i z := rfl

theorem setZone_self (ino : Inode) (i : Fin nrZoneNums) (z : ZoneNr) : (ino.setZone i z).zone i = z :=
  Function.update_self _ _ _

theorem setZone_of_ne (ino : Inode) {i j : Fin nrZoneNums} (ne : j ≠ i) (z : ZoneNr) :
    (ino.setZone i z).zone j = ino.zone j :=
  Function.update_of_ne ne _ _

theorem lookupZone_congr {ino' : Inode} {disk' : Disk}
    (direct : ∀ i : Fin nrZoneNums, i.val < nrDzoneNum → ino'.zone i = ino.zone i)
    (single : ∀ j, indirect scale disk' (ino'.zone singleSlot) j = indirect scale disk (ino.zone singleSlot) j)
    (double : ∀ j j', indirect scale disk' (indirect scale disk' (ino'.zone doubleSlot) j) j' =
      indirect scale disk (indirect scale disk (ino.zone doubleSlot) j) j')
    (n : ℕ) : lookupZone scale ino' disk' n = lookupZone scale ino disk n := by
  unfold lookupZone
  split_ifs with inDirect
  · exact direct _ inDirect
  · exact single _
  · exact double _ _
  · rfl

theorem zoneBlock_inj {a b : ZoneNr} (ha : Fits scale a) (hb : Fits scale b) (same : zoneBlock scale a = zoneBlock scale b) :
    a = b := by
  have numbers := congrArg UInt16.toNat same
  simp only [zoneBlock, UInt16.toNat_ofNat'] at numbers
  unfold Fits at ha hb
  rw [Nat.mod_eq_of_lt ha, Nat.mod_eq_of_lt hb, Nat.shiftLeft_eq, Nat.shiftLeft_eq] at numbers
  exact UInt16.toNat_inj.mp (Nat.eq_of_mul_eq_mul_right (Nat.two_pow_pos scale) numbers)

theorem zoneBlock_ne {a b : ZoneNr} (ha : Fits scale a) (hb : Fits scale b) (ne : a ≠ b) :
    zoneBlock scale a ≠ zoneBlock scale b := fun same => ne (zoneBlock_inj ha hb same)

theorem Refers.zone {z : ZoneNr} (named : z ≠ kNoZone) {i : Fin nrZoneNums} (h : ino.zone i = z) : Refers scale ino disk z :=
  ⟨named, by simp [fileZones, List.mem_ofFn, ← h]⟩

theorem Refers.listed {z : ZoneNr} (named : z ≠ kNoZone) {j : Fin nrIndirects}
    (h : indirect scale disk (ino.zone doubleSlot) j = z) : Refers scale ino disk z := by
  refine ⟨named, ?_⟩
  have double : ino.zone doubleSlot ≠ kNoZone := fun none => named (by rw [← h, none, indirect_kNoZone])
  simp only [indirect, if_neg double] at h
  simp [fileZones, entries, double, List.mem_ofFn, ← h]

structure Unused (scale : ℕ) (ino : Inode) (disk : Disk) (a : ZoneNr) : Prop where
  named : a ≠ kNoZone
  ne_zone : ∀ i, ino.zone i ≠ a
  ne_listed : ∀ j, indirect scale disk (ino.zone doubleSlot) j ≠ a
  fits : Fits scale a

theorem Fresh.unused {alloc : AllocZone} (fresh : Fresh scale alloc) (named : alloc ino disk ≠ kNoZone) :
    Unused scale ino disk (alloc ino disk) := by
  have unreferenced := (fresh.unreferenced ino disk).resolve_left named
  exact ⟨named, fun i h => unreferenced (Refers.zone named h), fun j h => unreferenced (Refers.listed named h),
    fresh.fits ino disk⟩

theorem fits_kNoZone : Fits scale kNoZone := by simp [Fits, kNoZone]

def allocFirst (scale : ℕ) (zs : List ZoneNr) : AllocZone := fun ino disk =>
  (zs.find? fun z => !decide (Refers scale ino disk z)).getD kNoZone

theorem fresh_allocFirst {zs : List ZoneNr} (fits : ∀ z ∈ zs, Fits scale z) : Fresh scale (allocFirst scale zs) where
  unreferenced ino disk := by
    unfold allocFirst
    cases found : zs.find? fun z => !decide (Refers scale ino disk z) with
    | none => exact .inl rfl
    | some z => exact .inr (by simpa using List.find?_some found)
  fits ino disk := by
    unfold allocFirst
    cases found : zs.find? fun z => !decide (Refers scale ino disk z) with
    | none => exact fits_kNoZone
    | some z => exact fits z (List.mem_of_find?_eq_some found)

theorem nrDzoneNum_eq : nrDzoneNum = 7 := rfl

theorem nrIndirects_eq : nrIndirects = 512 := rfl

theorem indirect_of_ne {z : ZoneNr} (named : z ≠ kNoZone) (j : Fin nrIndirects) :
    indirect scale disk z j = disk (zoneBlock scale z) j := if_neg named

theorem singleSlot_ne {i : Fin nrZoneNums} (direct : i.val < nrDzoneNum) : singleSlot ≠ i :=
  fun h => Nat.lt_irrefl _ (h ▸ direct)

theorem doubleSlot_ne {i : Fin nrZoneNums} (direct : i.val < nrDzoneNum) : doubleSlot ≠ i :=
  fun h => by rw [← h] at direct; exact absurd direct (by decide)

theorem lookupZone_single_at (e : Fin nrIndirects) :
    lookupZone scale ino disk (nrDzoneNum + e) = indirect scale disk (ino.zone singleSlot) e := by
  simp [lookupZone]

theorem lookupZone_listed_at (idx e : Fin nrIndirects) :
    lookupZone scale ino disk (nrDzoneNum + nrIndirects + idx * nrIndirects + e) =
      indirect scale disk (indirect scale disk (ino.zone doubleSlot) idx) e := by
  have hi : (idx : ℕ) < 512 := idx.isLt
  have he : (e : ℕ) < 512 := e.isLt
  have direct : ¬ nrDzoneNum + nrIndirects + idx * nrIndirects + e < nrDzoneNum := by
    simp only [nrDzoneNum_eq, nrIndirects_eq]; omega
  have single : ¬ nrDzoneNum + nrIndirects + idx * nrIndirects + e - nrDzoneNum < nrIndirects := by
    simp only [nrDzoneNum_eq, nrIndirects_eq]; omega
  have index : (nrDzoneNum + nrIndirects + idx * nrIndirects + e - nrDzoneNum - nrIndirects) / nrIndirects = idx := by
    simp only [nrDzoneNum_eq, nrIndirects_eq]; omega
  have offset : (nrDzoneNum + nrIndirects + idx * nrIndirects + e - nrDzoneNum - nrIndirects) % nrIndirects = e := by
    simp only [nrDzoneNum_eq, nrIndirects_eq]; omega
  unfold lookupZone
  rw [dif_neg direct, dif_neg single, dif_pos (by rw [index]; exact idx.isLt)]
  simp only [index, offset]

theorem Tidy.congr {ino' : Inode} {disk' : Disk} (tidy : Tidy scale ino disk)
    (single : ino'.zone singleSlot = ino.zone singleSlot) (double : ino'.zone doubleSlot = ino.zone doubleSlot)
    (listed : ∀ j, indirect scale disk' (ino.zone doubleSlot) j = indirect scale disk (ino.zone doubleSlot) j) :
    Tidy scale ino' disk' where
  single_ne_double := by rw [single, double]; exact tidy.single_ne_double
  listed_ne_single := by simp only [single, double, listed]; exact tidy.listed_ne_single
  listed_ne_double := by simp only [double, listed]; exact tidy.listed_ne_double
  listed_inj := by simp only [double, listed]; exact tidy.listed_inj
  fits_single := by rw [single]; exact tidy.fits_single
  fits_double := by rw [double]; exact tidy.fits_double
  fits_listed := by simp only [double, listed]; exact tidy.fits_listed

theorem tidy_of_no_indirect (single : ino.zone singleSlot = kNoZone) (double : ino.zone doubleSlot = kNoZone) :
    Tidy scale ino disk where
  single_ne_double := fun named => absurd single named
  listed_ne_single := by simp [double]
  listed_ne_double := by simp [double]
  listed_inj := by simp [double]
  fits_single := by rw [single]; exact fits_kNoZone
  fits_double := by rw [double]; exact fits_kNoZone
  fits_listed := by simp [double, fits_kNoZone]

/-! Each write `write_map` makes changes the map at one zone index: a direct
zone, an entry of the single indirect block, or an entry of a block the double
one lists. -/

theorem lookupZone_setZone_direct {i : Fin nrZoneNums} (direct : i.val < nrDzoneNum) (v : ZoneNr) (n : ℕ) :
    lookupZone scale (ino.setZone i v) disk n = if n = i then v else lookupZone scale ino disk n := by
  by_cases target : n = i
  · subst target
    simp [lookupZone, direct]
  · rw [if_neg target]
    unfold lookupZone
    split_ifs with inDirect
    · rw [setZone_zone, Function.update_of_ne fun h => target (by rw [← h])]
    · rw [setZone_zone, Function.update_of_ne (singleSlot_ne direct)]
    · rw [setZone_zone, Function.update_of_ne (doubleSlot_ne direct)]
    · rfl

theorem lookupZone_setInd_single (tidy : Tidy scale ino disk) {s : ZoneNr} (single : ino.zone singleSlot = s)
    (named : s ≠ kNoZone) (e : Fin nrIndirects) (v : ZoneNr) (n : ℕ) :
    lookupZone scale ino (setInd disk (zoneBlock scale s) e v) n =
      if n = nrDzoneNum + e then v else lookupZone scale ino disk n := by
  subst single
  by_cases target : n = nrDzoneNum + e
  · subst target
    rw [if_pos rfl, lookupZone_single_at, indirect_setInd, if_pos ⟨named, rfl, rfl⟩]
  · rw [if_neg target]
    have double : ino.zone doubleSlot ≠ kNoZone →
        zoneBlock scale (ino.zone doubleSlot) ≠ zoneBlock scale (ino.zone singleSlot) :=
      fun _ => zoneBlock_ne tidy.fits_double tidy.fits_single (tidy.single_ne_double named).symm
    have listed : ∀ j, indirect scale disk (ino.zone doubleSlot) j ≠ kNoZone →
        zoneBlock scale (indirect scale disk (ino.zone doubleSlot) j) ≠ zoneBlock scale (ino.zone singleSlot) :=
      fun j listed => zoneBlock_ne (tidy.fits_listed j) tidy.fits_single (tidy.listed_ne_single j listed)
    unfold lookupZone
    split_ifs with direct range
    · rfl
    · rw [indirect_setInd, if_neg]
      rintro ⟨-, -, same⟩
      have offset := congrArg Fin.val same
      simp only at offset
      omega
    · rw [indirect_setInd_of_ne double, indirect_setInd_of_ne (listed _)]
    · rfl

theorem lookupZone_setInd_listed (tidy : Tidy scale ino disk) {idx : Fin nrIndirects} {l : ZoneNr}
    (listed : indirect scale disk (ino.zone doubleSlot) idx = l) (named : l ≠ kNoZone) (e : Fin nrIndirects)
    (v : ZoneNr) (n : ℕ) :
    lookupZone scale ino (setInd disk (zoneBlock scale l) e v) n =
      if n = nrDzoneNum + nrIndirects + idx * nrIndirects + e then v else lookupZone scale ino disk n := by
  subst listed
  have single : ino.zone singleSlot ≠ kNoZone →
      zoneBlock scale (ino.zone singleSlot) ≠ zoneBlock scale (indirect scale disk (ino.zone doubleSlot) idx) :=
    fun _ => zoneBlock_ne tidy.fits_single (tidy.fits_listed idx) (tidy.listed_ne_single idx named).symm
  have double : ino.zone doubleSlot ≠ kNoZone →
      zoneBlock scale (ino.zone doubleSlot) ≠ zoneBlock scale (indirect scale disk (ino.zone doubleSlot) idx) :=
    fun _ => zoneBlock_ne tidy.fits_double (tidy.fits_listed idx) (tidy.listed_ne_double idx named).symm
  by_cases target : n = nrDzoneNum + nrIndirects + idx * nrIndirects + e
  · subst target
    rw [if_pos rfl, lookupZone_listed_at, indirect_setInd_of_ne double, indirect_setInd, if_pos ⟨named, rfl, rfl⟩]
  · rw [if_neg target]
    unfold lookupZone
    split_ifs with direct range
    · rfl
    · exact indirect_setInd_of_ne single _ _ _
    · rw [indirect_setInd_of_ne double, indirect_setInd, if_neg]
      rintro ⟨listed, same, offset⟩
      have index := congrArg Fin.val
        (tidy.listed_inj _ idx listed (zoneBlock_inj (tidy.fits_listed _) (tidy.fits_listed idx) same))
      have offset := congrArg Fin.val offset
      simp only at index offset
      simp only [nrDzoneNum_eq, nrIndirects_eq] at *
      omega
    · rfl

theorem Tidy.setInd_single (tidy : Tidy scale ino disk) {s : ZoneNr} (single : ino.zone singleSlot = s)
    (named : s ≠ kNoZone) (e : Fin nrIndirects) (v : ZoneNr) :
    Tidy scale ino (setInd disk (zoneBlock scale s) e v) := by
  subst single
  exact tidy.congr rfl rfl (indirect_setInd_of_ne
    (fun _ => zoneBlock_ne tidy.fits_double tidy.fits_single (tidy.single_ne_double named).symm) e v)

theorem Tidy.setInd_listed (tidy : Tidy scale ino disk) {idx : Fin nrIndirects} {l : ZoneNr}
    (listed : indirect scale disk (ino.zone doubleSlot) idx = l) (named : l ≠ kNoZone) (e : Fin nrIndirects)
    (v : ZoneNr) : Tidy scale ino (setInd disk (zoneBlock scale l) e v) := by
  subst listed
  exact tidy.congr rfl rfl (indirect_setInd_of_ne
    (fun _ => zoneBlock_ne tidy.fits_double (tidy.fits_listed idx) (tidy.listed_ne_double idx named).symm) e v)

theorem Unused.other {a z : ZoneNr} (unused : Unused scale ino disk a) (ne : z ≠ a) (fits : Fits scale z) :
    z ≠ kNoZone → zoneBlock scale z ≠ zoneBlock scale a :=
  fun _ => zoneBlock_ne fits unused.fits ne

/-! Creating an indirect block (`alloc_zone`, the zone stored where `zp`
points, the block zeroed) leaves the map as it was and the file tidy. -/

section Create

variable {a : ZoneNr} (tidy : Tidy scale ino disk) (unused : Unused scale ino disk a)
include tidy unused

theorem lookupZone_newSingle (none : ino.zone singleSlot = kNoZone) (n : ℕ) :
    lookupZone scale (ino.setZone singleSlot a) (zeroBlock disk (zoneBlock scale a)) n =
      lookupZone scale ino disk n := by
  have double : (ino.setZone singleSlot a).zone doubleSlot = ino.zone doubleSlot :=
    setZone_of_ne ino (by decide) a
  apply lookupZone_congr
  · intro i direct
    exact setZone_of_ne ino (singleSlot_ne direct).symm a
  · intro j
    rw [setZone_self, indirect_zeroBlock_self, none, indirect_kNoZone]
  · intro j j'
    rw [double, indirect_zeroBlock_of_ne (unused.other (unused.ne_zone doubleSlot) tidy.fits_double),
      indirect_zeroBlock_of_ne (unused.other (unused.ne_listed j) (tidy.fits_listed j))]

theorem Tidy.newSingle : Tidy scale (ino.setZone singleSlot a) (zeroBlock disk (zoneBlock scale a)) := by
  have single : (ino.setZone singleSlot a).zone singleSlot = a := setZone_self ino singleSlot a
  have double : (ino.setZone singleSlot a).zone doubleSlot = ino.zone doubleSlot :=
    setZone_of_ne ino (by decide) a
  have listed : ∀ j, indirect scale (zeroBlock disk (zoneBlock scale a)) (ino.zone doubleSlot) j =
      indirect scale disk (ino.zone doubleSlot) j :=
    indirect_zeroBlock_of_ne (unused.other (unused.ne_zone doubleSlot) tidy.fits_double)
  exact {
    single_ne_double := fun _ => by rw [single, double]; exact (unused.ne_zone doubleSlot).symm
    listed_ne_single := fun j _ => by rw [single, double, listed]; exact unused.ne_listed j
    listed_ne_double := by simp only [double, listed]; exact tidy.listed_ne_double
    listed_inj := by simp only [double, listed]; exact tidy.listed_inj
    fits_single := by rw [single]; exact unused.fits
    fits_double := by rw [double]; exact tidy.fits_double
    fits_listed := by simp only [double, listed]; exact tidy.fits_listed }

theorem lookupZone_newDouble (none : ino.zone doubleSlot = kNoZone) (n : ℕ) :
    lookupZone scale (ino.setZone doubleSlot a) (zeroBlock disk (zoneBlock scale a)) n =
      lookupZone scale ino disk n := by
  have single : (ino.setZone doubleSlot a).zone singleSlot = ino.zone singleSlot :=
    setZone_of_ne ino (by decide) a
  apply lookupZone_congr
  · intro i direct
    exact setZone_of_ne ino (doubleSlot_ne direct).symm a
  · intro j
    rw [single, indirect_zeroBlock_of_ne (unused.other (unused.ne_zone singleSlot) tidy.fits_single)]
  · intro j j'
    rw [setZone_self, indirect_zeroBlock_self, indirect_kNoZone, none, indirect_kNoZone, indirect_kNoZone]

theorem Tidy.newDouble : Tidy scale (ino.setZone doubleSlot a) (zeroBlock disk (zoneBlock scale a)) := by
  have single : (ino.setZone doubleSlot a).zone singleSlot = ino.zone singleSlot :=
    setZone_of_ne ino (by decide) a
  have double : (ino.setZone doubleSlot a).zone doubleSlot = a := setZone_self ino doubleSlot a
  have listed : ∀ j, indirect scale (zeroBlock disk (zoneBlock scale a)) a j = kNoZone :=
    indirect_zeroBlock_self
  exact {
    single_ne_double := fun _ => by rw [single, double]; exact unused.ne_zone singleSlot
    listed_ne_single := by simp [double, listed]
    listed_ne_double := by simp [double, listed]
    listed_inj := by simp [double, listed]
    fits_single := by rw [single]; exact tidy.fits_single
    fits_double := by rw [double]; exact unused.fits
    fits_listed := by simp [double, listed, fits_kNoZone] }

theorem indirect_newListed {d : ZoneNr} (double : ino.zone doubleSlot = d) (named : d ≠ kNoZone)
    (idx j : Fin nrIndirects) :
    indirect scale (zeroBlock (setInd disk (zoneBlock scale d) idx a) (zoneBlock scale a)) d j =
      if j = idx then a else indirect scale disk d j := by
  subst double
  rw [indirect_zeroBlock_of_ne (unused.other (unused.ne_zone doubleSlot) tidy.fits_double), indirect_setInd]
  simp [named]

theorem lookupZone_newListed {d : ZoneNr} (double : ino.zone doubleSlot = d) (named : d ≠ kNoZone)
    {idx : Fin nrIndirects} (none : indirect scale disk d idx = kNoZone) (n : ℕ) :
    lookupZone scale ino (zeroBlock (setInd disk (zoneBlock scale d) idx a) (zoneBlock scale a)) n =
      lookupZone scale ino disk n := by
  have listed := indirect_newListed tidy unused double named idx
  subst double
  apply lookupZone_congr
  · intro i _
    rfl
  · intro j
    have single : ino.zone singleSlot ≠ kNoZone →
        zoneBlock scale (ino.zone singleSlot) ≠ zoneBlock scale (ino.zone doubleSlot) :=
      fun named => zoneBlock_ne tidy.fits_single tidy.fits_double (tidy.single_ne_double named)
    rw [indirect_zeroBlock_of_ne (unused.other (unused.ne_zone singleSlot) tidy.fits_single),
      indirect_setInd_of_ne single]
  · intro j j'
    rw [listed]
    split_ifs with atIdx
    · rw [indirect_zeroBlock_self, atIdx, none, indirect_kNoZone]
    · have double : indirect scale disk (ino.zone doubleSlot) j ≠ kNoZone →
          zoneBlock scale (indirect scale disk (ino.zone doubleSlot) j) ≠ zoneBlock scale (ino.zone doubleSlot) :=
        fun listed => zoneBlock_ne (tidy.fits_listed j) tidy.fits_double (tidy.listed_ne_double j listed)
      rw [indirect_zeroBlock_of_ne (unused.other (unused.ne_listed j) (tidy.fits_listed j)),
        indirect_setInd_of_ne double]

theorem Tidy.newListed {d : ZoneNr} (double : ino.zone doubleSlot = d) (named : d ≠ kNoZone)
    (idx : Fin nrIndirects) :
    Tidy scale ino (zeroBlock (setInd disk (zoneBlock scale d) idx a) (zoneBlock scale a)) := by
  have listed := indirect_newListed tidy unused double named idx
  subst double
  exact {
    single_ne_double := tidy.single_ne_double
    listed_ne_single := fun j => by
      rw [listed]
      split_ifs
      · exact fun _ => (unused.ne_zone singleSlot).symm
      · exact tidy.listed_ne_single j
    listed_ne_double := fun j => by
      rw [listed]
      split_ifs
      · exact fun _ => (unused.ne_zone doubleSlot).symm
      · exact tidy.listed_ne_double j
    listed_inj := fun j j' => by
      rw [listed, listed]
      split_ifs with atIdx atIdx'
      · exact fun _ _ => atIdx.trans atIdx'.symm
      · exact fun _ same => absurd same.symm (unused.ne_listed j')
      · exact fun _ same => absurd same (unused.ne_listed j)
      · exact tidy.listed_inj j j'
    fits_single := tidy.fits_single
    fits_double := tidy.fits_double
    fits_listed := fun j => by
      rw [listed]
      split_ifs
      · exact unused.fits
      · exact tidy.fits_listed j }

end Create

end Lemmas

/-! ### `write_map` stores one zone -/

section WriteSpec

variable {alloc : AllocZone} {scale : ℕ} {ino ino' : Inode} {disk disk' : Disk}
  (fresh : Fresh scale alloc) (tidy : Tidy scale ino disk)
include fresh tidy

theorem writeSingle_single_spec (e : Fin nrIndirects) (v : ZoneNr)
    (ok : writeSingle alloc scale ino disk (.inode singleSlot) e v = (.ok, ino', disk')) :
    Tidy scale ino' disk' ∧
      ∀ n, lookupZone scale ino' disk' n = if n = nrDzoneNum + e then v else lookupZone scale ino disk n := by
  simp only [writeSingle, fillSingle, ZoneSlot.get, ZoneSlot.set] at ok
  by_cases none : ino.zone singleSlot = kNoZone
  · by_cases failed : alloc ino disk = kNoZone
    · simp [none, failed] at ok
    · simp only [none, failed, if_true, if_false, Prod.mk.injEq] at ok
      obtain ⟨-, rfl, rfl⟩ := ok
      have unused := fresh.unused failed
      have tidy₁ := tidy.newSingle unused
      refine ⟨tidy₁.setInd_single (setZone_self ino singleSlot _) failed e v, fun n => ?_⟩
      rw [lookupZone_setInd_single tidy₁ (setZone_self ino singleSlot _) failed,
        lookupZone_newSingle tidy unused none]
  · simp only [none, if_false, Bool.false_eq_true, Prod.mk.injEq] at ok
    obtain ⟨-, rfl, rfl⟩ := ok
    exact ⟨tidy.setInd_single rfl none e v, lookupZone_setInd_single tidy rfl none e v⟩

theorem writeSingle_listed_spec {d : ZoneNr} (double : ino.zone doubleSlot = d) (named : d ≠ kNoZone)
    (idx e : Fin nrIndirects) (v : ZoneNr)
    (ok : writeSingle alloc scale ino disk (.ind (zoneBlock scale d) idx) e v = (.ok, ino', disk')) :
    Tidy scale ino' disk' ∧ ∀ n, lookupZone scale ino' disk' n =
      if n = nrDzoneNum + nrIndirects + idx * nrIndirects + e then v else lookupZone scale ino disk n := by
  have entry : disk (zoneBlock scale d) idx = indirect scale disk (ino.zone doubleSlot) idx := by
    rw [double, indirect_of_ne named]
  simp only [writeSingle, fillSingle, ZoneSlot.get, ZoneSlot.set, entry] at ok
  by_cases none : indirect scale disk (ino.zone doubleSlot) idx = kNoZone
  · by_cases failed : alloc ino disk = kNoZone
    · simp [none, failed] at ok
    · simp only [none, failed, if_true, if_false, Prod.mk.injEq] at ok
      obtain ⟨-, rfl, rfl⟩ := ok
      have unused := fresh.unused failed
      have tidy₁ := tidy.newListed unused double named idx
      have listed : indirect scale (zeroBlock (setInd disk (zoneBlock scale d) idx (alloc ino disk))
          (zoneBlock scale (alloc ino disk))) (ino.zone doubleSlot) idx = alloc ino disk := by
        rw [double, indirect_newListed tidy unused double named, if_pos rfl]
      refine ⟨tidy₁.setInd_listed listed failed e v, fun n => ?_⟩
      rw [lookupZone_setInd_listed tidy₁ listed failed, lookupZone_newListed tidy unused double named (double ▸ none)]
  · simp only [none, if_false, Bool.false_eq_true, Prod.mk.injEq] at ok
    obtain ⟨-, rfl, rfl⟩ := ok
    exact ⟨tidy.setInd_listed rfl none e v, lookupZone_setInd_listed tidy rfl none e v⟩

theorem writeDouble_spec {d : ZoneNr} (double : ino.zone doubleSlot = d) (named : d ≠ kNoZone) (excess : ℕ)
    (v : ZoneNr) (ok : writeDouble alloc scale ino disk d false excess v = (.ok, ino', disk')) :
    Tidy scale ino' disk' ∧ ∀ n, lookupZone scale ino' disk' n =
      if n = nrDzoneNum + nrIndirects + excess then v else lookupZone scale ino disk n := by
  simp only [writeDouble, Bool.false_eq_true, if_false] at ok
  split_ifs at ok with index
  · obtain ⟨tidy', lookup⟩ := writeSingle_listed_spec fresh tidy double named _ _ v ok
    refine ⟨tidy', fun n => ?_⟩
    have whole := Nat.div_add_mod' excess nrIndirects
    rw [lookup]
    simp only [Nat.add_assoc, whole]
  · simp at ok

omit fresh tidy in
theorem writeDouble_new {excess : ℕ} (index : excess / nrIndirects < nrIndirects) (dbl v : ZoneNr) :
    writeDouble alloc scale ino disk dbl true excess v =
      writeDouble alloc scale ino (zeroBlock disk (zoneBlock scale dbl)) dbl false excess v := by
  simp [writeDouble, index]

theorem writeMap_spec (p : ℕ) (v : ZoneNr) (ok : writeMap alloc scale ino disk p v = (.ok, ino', disk')) :
    Tidy scale ino' disk' ∧ ∀ n, lookupZone scale ino' disk' n =
      if n = (p / blockSize) >>> scale then v else lookupZone scale ino disk n := by
  simp only [writeMap] at ok
  by_cases direct : (p / blockSize) >>> scale < nrDzoneNum
  · simp only [dif_pos direct, Prod.mk.injEq] at ok
    obtain ⟨-, rfl, rfl⟩ := ok
    refine ⟨tidy.congr (setZone_of_ne ino (singleSlot_ne direct) v) (setZone_of_ne ino (doubleSlot_ne direct) v)
      fun _ => rfl, lookupZone_setZone_direct direct v⟩
  rw [dif_neg direct] at ok
  by_cases single : (p / blockSize) >>> scale - nrDzoneNum < nrIndirects
  · rw [dif_pos single] at ok
    obtain ⟨tidy', lookup⟩ := writeSingle_single_spec fresh tidy _ v ok
    refine ⟨tidy', fun n => ?_⟩
    rw [lookup, Fin.val_mk, Nat.add_sub_cancel' (Nat.le_of_not_lt direct)]
  rw [dif_neg single] at ok
  have target : nrDzoneNum + nrIndirects + ((p / blockSize) >>> scale - nrDzoneNum - nrIndirects) =
      (p / blockSize) >>> scale := by omega
  by_cases none : ino.zone doubleSlot = kNoZone
  · by_cases failed : alloc ino disk = kNoZone
    · simp [none, failed] at ok
    simp only [none, failed, if_true, if_false] at ok
    have index : ((p / blockSize) >>> scale - nrDzoneNum - nrIndirects) / nrIndirects < nrIndirects := by
      by_contra outside
      simp [writeDouble, outside] at ok
    rw [writeDouble_new index] at ok
    have unused := fresh.unused failed
    obtain ⟨tidy', lookup⟩ := writeDouble_spec fresh (tidy.newDouble unused) (setZone_self ino doubleSlot _)
      failed _ v ok
    refine ⟨tidy', fun n => ?_⟩
    rw [lookup, lookupZone_newDouble tidy unused none, target]
  · rw [if_neg none] at ok
    obtain ⟨tidy', lookup⟩ := writeDouble_spec fresh tidy rfl none _ v ok
    exact ⟨tidy', fun n => by rw [lookup, target]⟩

omit fresh tidy in
theorem writeMap_efbig_keeps_new_double (p : ℕ) (v : ZoneNr)
    (outside : nrIndirects ≤ ((p / blockSize) >>> scale - nrDzoneNum - nrIndirects) / nrIndirects)
    (none : ino.zone doubleSlot = kNoZone) (named : alloc ino disk ≠ kNoZone) :
    writeMap alloc scale ino disk p v = (.efbig, ino.setZone doubleSlot (alloc ino disk), disk) ∧
      ∀ idx e : Fin nrIndirects,
        lookupZone scale ino disk (nrDzoneNum + nrIndirects + idx * nrIndirects + e) = kNoZone ∧
        lookupZone scale (ino.setZone doubleSlot (alloc ino disk)) disk (nrDzoneNum + nrIndirects + idx * nrIndirects + e) =
          indirect scale disk (disk (zoneBlock scale (alloc ino disk)) idx) e := by
  have direct : ¬ (p / blockSize) >>> scale < nrDzoneNum := by
    intro inside
    rw [Nat.sub_eq_zero_of_le (Nat.le_of_lt inside)] at outside
    exact absurd outside (by decide)
  have single : ¬ (p / blockSize) >>> scale - nrDzoneNum < nrIndirects := by
    intro inside
    rw [Nat.sub_eq_zero_of_le (Nat.le_of_lt inside)] at outside
    exact absurd outside (by decide)
  refine ⟨?_, fun idx e => ⟨?_, ?_⟩⟩
  · simp only [writeMap, dif_neg direct, dif_neg single, none, named, if_true, if_false]
    simp [writeDouble, Nat.not_lt.mpr outside]
  · rw [lookupZone_listed_at, none, indirect_kNoZone, indirect_kNoZone]
  · rw [lookupZone_listed_at, setZone_self, indirect_of_ne named]

end WriteSpec

/-- After `write_map` stores zone `z` for position `p`, `read_map` finds `z`'s
block at `p`, and every other zone within `MAX_ZONES` reads as before. -/
theorem readMap_after_writeMap {alloc : AllocZone} {scale : ℕ} {ino : Inode} {disk : Disk} {p : ℕ} {z : ZoneNr}
    (fresh : Fresh scale alloc) (tidy : Tidy scale ino disk) (inRange : (p / blockSize) >>> scale < maxZones)
    (named : z ≠ kNoZone) (ok : (writeMap alloc scale ino disk p z).1 = .ok) :
    let w := writeMap alloc scale ino disk p z
    readMap scale w.2.1 w.2.2 p = .ok (UInt16.ofNat ((z.toNat <<< scale) + (p / blockSize) % 2 ^ scale)) ∧
      ∀ q, (q / blockSize) >>> scale < maxZones → (q / blockSize) >>> scale ≠ (p / blockSize) >>> scale →
        readMap scale w.2.1 w.2.2 q = readMap scale ino disk q := by
  dsimp only
  obtain ⟨-, lookup⟩ := writeMap_spec fresh tidy p z (Prod.ext ok rfl)
  refine ⟨?_, fun q inRange' other => ?_⟩
  · rw [readMap_eq_lookupZone _ _ _ inRange, lookup, if_pos rfl, zoneBlockAt, if_neg named]
    rfl
  · rw [readMap_eq_lookupZone _ _ _ inRange', readMap_eq_lookupZone _ _ _ inRange', lookup, if_neg other]

def emptyInode : Inode := ⟨fun _ => kNoZone⟩

def zeroDisk : Disk := fun _ _ => kNoZone

/-- Position 1000 blocks in is in the double indirect range: the write
creates the double indirect block and the block it lists. -/
theorem readMap_after_writeMap_double :
    (writeMap (allocFirst 0 [100, 101]) 0 emptyInode zeroDisk (1000 * blockSize) 5).1 = .ok ∧
      let w := writeMap (allocFirst 0 [100, 101]) 0 emptyInode zeroDisk (1000 * blockSize) 5
      readMap 0 w.2.1 w.2.2 (1000 * blockSize) =
          .ok (UInt16.ofNat (((5 : ZoneNr).toNat <<< 0) + (1000 * blockSize / blockSize) % 2 ^ 0)) ∧
        ∀ q, (q / blockSize) >>> 0 < maxZones → (q / blockSize) >>> 0 ≠ (1000 * blockSize / blockSize) >>> 0 →
          readMap 0 w.2.1 w.2.2 q = readMap 0 emptyInode zeroDisk q :=
  have ok : (writeMap (allocFirst 0 [100, 101]) 0 emptyInode zeroDisk (1000 * blockSize) 5).1 = .ok := by
    decide +kernel
  ⟨ok, readMap_after_writeMap (fresh_allocFirst (by simp [Fits])) (tidy_of_no_indirect rfl rfl)
    (by decide) (by decide) ok⟩

def aliasedInode : Inode := ⟨fun i => if i = singleSlot ∨ i = doubleSlot then 1 else kNoZone⟩

/-- Through an inode whose indirect blocks alias, storing the first zone of the
double indirect range changes the first zone of the single one; and once the
double indirect block exists, a position past `MAX_ZONES` reads outside it. -/
theorem aliased_indirect_blocks_break_write_map :
    Fresh 0 (allocFirst 0 [100, 101]) ∧
      (writeMap (allocFirst 0 [100, 101]) 0 aliasedInode zeroDisk (519 * blockSize) 5).1 = .ok ∧
      readMap 0 aliasedInode zeroDisk (nrDzoneNum * blockSize) = .ok kNoBlock ∧
      readMap 0 (writeMap (allocFirst 0 [100, 101]) 0 aliasedInode zeroDisk (519 * blockSize) 5).2.1
        (writeMap (allocFirst 0 [100, 101]) 0 aliasedInode zeroDisk (519 * blockSize) 5).2.2
        (nrDzoneNum * blockSize) = .ok 100 ∧
      (writeMap (allocFirst 0 [100, 101]) 0 emptyInode zeroDisk (519 * blockSize) 5).1 = .ok ∧
      readMap 0 emptyInode zeroDisk (maxZones * blockSize) = .ok kNoBlock ∧
      readMap 0 (writeMap (allocFirst 0 [100, 101]) 0 emptyInode zeroDisk (519 * blockSize) 5).2.1
        (writeMap (allocFirst 0 [100, 101]) 0 emptyInode zeroDisk (519 * blockSize) 5).2.2
        (maxZones * blockSize) = .error .outOfBounds :=
  ⟨fresh_allocFirst (by simp [Fits]), by decide +kernel⟩

/-- A device whose block 5 lists zone 6 first and whose block 6 lists zone 7
first: what the blocks of a zone freed by another file may still hold. -/
def staleDisk : Disk := fun b i =>
  if b = 5 ∧ i.val = 0 then 6 else if b = 6 ∧ i.val = 0 then 7 else kNoZone

/-- Past the double indirect range, `write_map` returns `EFBIG` with the new
double indirect zone 5 stored in the inode and its block not zeroed: the
first position of the double indirect range, which read as no block, now
reads block 7 through the stale entries. -/
theorem failed_write_map_links_stale_block :
    writeMap (fun _ _ => 5) 0 emptyInode staleDisk (maxZones * blockSize) 1 =
        (.efbig, emptyInode.setZone doubleSlot 5, staleDisk) ∧
      readMap 0 emptyInode staleDisk ((nrDzoneNum + nrIndirects) * blockSize) = .ok kNoBlock ∧
      readMap 0 (emptyInode.setZone doubleSlot 5) staleDisk ((nrDzoneNum + nrIndirects) * blockSize) = .ok 7 :=
  ⟨(writeMap_efbig_keeps_new_double (maxZones * blockSize) 1 (by decide) rfl (by decide)).1, by decide +kernel⟩

end Xinim.Fs
