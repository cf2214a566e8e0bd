import Mathlib.Algebra.BigOperators.Group.Finset.Basic
import Mathlib.Data.List.Find
import Mathlib.Algebra.Order.BigOperators.Group.Finset
import Xinim.Ext2.Alloc

/-! The counters of the ext2 allocators over whole runs. On a filesystem
whose bitmaps are distinct blocks outside the descriptor table (`Layout`),
every `allocate_block`, `free_block`, `allocate_inode` and `free_inode` keeps
each group's free counts equal to the clear bits of its bitmaps, and the
superblock's and the cached totals equal to their sums (`Counted`); a block or
inode handed out is one of the filesystem whose bit was clear. -/

namespace Xinim.Ext2

section Bits

variable {bitmap : ℕ → UInt8} {size i : ℕ}

theorem testBit_of_lt (h : i < size * 8) : testBit bitmap size i = Bitmap.test bitmap i := by
  rw [testBit, if_neg (by omega)]

theorem setBit_of_lt (h : i < size * 8) : setBit bitmap size i = Bitmap.set bitmap i := by
  rw [setBit, if_pos (by omega)]

theorem clearBit_of_lt (h : i < size * 8) : clearBit bitmap size i = Bitmap.clear bitmap i := by
  rw [clearBit, if_pos (by omega)]

theorem findFreeBit_eq_firstClear : findFreeBit bitmap size = Bitmap.firstClear bitmap (size * 8) :=
  List.find?_congr fun _ hi => by rw [testBit_of_lt (List.mem_range.mp hi)]

theorem clearBits_eq_clearCount {n : ℕ} (h : n ≤ size * 8) :
    Ext2Filesystem.clearBits bitmap size n = Bitmap.clearCount bitmap n :=
  List.countP_congr fun _ hi => by rw [testBit_of_lt (by have := List.mem_range.mp hi; omega)]

end Bits

theorem sum_add_of_eq_off {f f' : ℕ → ℕ} {g n : ℕ} (hg : g < n) (off : ∀ h, h ≠ g → f' h = f h) :
    (∑ h ∈ Finset.range n, f' h) + f g = (∑ h ∈ Finset.range n, f h) + f' g := by
  have mem : g ∈ Finset.range n := Finset.mem_range.mpr hg
  rw [← Finset.sum_erase_add _ _ mem, ← Finset.sum_erase_add _ _ mem]
  have rest : ∑ h ∈ (Finset.range n).erase g, f' h = ∑ h ∈ (Finset.range n).erase g, f h :=
    Finset.sum_congr rfl fun h hh => off h (Finset.ne_of_mem_erase hh)
  rw [rest]
  omega

theorem sum_min_le (per count first n : ℕ) :
    ∑ g ∈ Finset.range n, min per (count - (first + g * per)) = min (n * per) (count - first) := by
  induction n with
  | zero => simp
  | succ n ih =>
    rw [Finset.sum_range_succ, ih, Nat.succ_mul]
    have split : count - (first + n * per) = count - first - n * per := by omega
    rw [split]
    omega

/-! Blocks and inodes are allocated alike: a descriptor field, a superblock
field and a cached counter of each, and a bitmap per group. The view below
indexes them by `inode : Bool`, so that one argument covers both. -/

namespace GroupDescriptor

def bitmap (d : GroupDescriptor) : Bool → ℕ
  | true => d.bgInodeBitmap
  | false => d.bgBlockBitmap

@[simp] theorem bitmap_true (d : GroupDescriptor) : d.bitmap true = d.bgInodeBitmap := rfl
@[simp] theorem bitmap_false (d : GroupDescriptor) : d.bitmap false = d.bgBlockBitmap := rfl

def freeCount (d : GroupDescriptor) : Bool → ℕ
  | true => d.bgFreeInodesCount
  | false => d.bgFreeBlocksCount

@[simp] theorem freeCount_true (d : GroupDescriptor) : d.freeCount true = d.bgFreeInodesCount := rfl
@[simp] theorem freeCount_false (d : GroupDescriptor) : d.freeCount false = d.bgFreeBlocksCount := rfl

end GroupDescriptor

namespace Superblock

def freeCount (sb : Superblock) : Bool → ℕ
  | true => sb.sFreeInodesCount
  | false => sb.sFreeBlocksCount

def count (sb : Superblock) : Bool → ℕ
  | true => sb.sInodesCount
  | false => sb.sBlocksCount

def perGroup (sb : Superblock) : Bool → ℕ
  | true => sb.sInodesPerGroup
  | false => sb.sBlocksPerGroup

@[simp] theorem freeCount_true (sb : Superblock) : sb.freeCount true = sb.sFreeInodesCount := rfl
@[simp] theorem freeCount_false (sb : Superblock) : sb.freeCount false = sb.sFreeBlocksCount := rfl
@[simp] theorem count_true (sb : Superblock) : sb.count true = sb.sInodesCount := rfl
@[simp] theorem count_false (sb : Superblock) : sb.count false = sb.sBlocksCount := rfl
@[simp] theorem perGroup_true (sb : Superblock) : sb.perGroup true = sb.sInodesPerGroup := rfl
@[simp] theorem perGroup_false (sb : Superblock) : sb.perGroup false = sb.sBlocksPerGroup := rfl

end Superblock

namespace Ext2Filesystem

variable {fs fs' : Ext2Filesystem}

section Operations

theorem readDataBlock_eq_ok {b : ℕ} {bitmap : ℕ → UInt8} (h : fs.readDataBlock b = .ok bitmap) :
    bitmap = fs.bitmapAt b := by
  unfold readDataBlock at h
  unfold bitmapAt
  split_ifs at h with zero outside
  · cases h
    rw [if_pos zero]
  · cases h
    rw [if_neg zero]

theorem writeDataBlock_eq_ok {b : ℕ} {buffer : ℕ → UInt8}
    (h : fs.writeDataBlock b buffer = .ok fs') :
    b ≠ 0 ∧ b < fs.superblock.sBlocksCount ∧
      fs' = { fs with blocks := Function.update fs.blocks b buffer } := by
  unfold writeDataBlock writeBlock at h
  split_ifs at h with bad readOnly
  · cases h
    exact ⟨fun zero => bad (.inl zero), by omega, rfl⟩

theorem writeGroupDescriptors_eq :
    fs.writeGroupDescriptors = { fs with blocks := fs.writeGroupDescriptors.blocks } := by
  unfold writeGroupDescriptors
  split_ifs <;> rfl

@[simp] theorem writeGroupDescriptors_superblock : fs.writeGroupDescriptors.superblock = fs.superblock := by
  rw [writeGroupDescriptors_eq]

@[simp] theorem writeGroupDescriptors_groupDescriptors :
    fs.writeGroupDescriptors.groupDescriptors = fs.groupDescriptors := by
  rw [writeGroupDescriptors_eq]

@[simp] theorem writeGroupDescriptors_numBlockGroups :
    fs.writeGroupDescriptors.numBlockGroups = fs.numBlockGroups := by
  rw [writeGroupDescriptors_eq]

@[simp] theorem writeGroupDescriptors_blockSize : fs.writeGroupDescriptors.blockSize = fs.blockSize := by
  rw [writeGroupDescriptors_eq]

@[simp] theorem writeGroupDescriptors_freeBlocks : fs.writeGroupDescriptors.freeBlocks = fs.freeBlocks := by
  rw [writeGroupDescriptors_eq]

@[simp] theorem writeGroupDescriptors_freeInodes : fs.writeGroupDescriptors.freeInodes = fs.freeInodes := by
  rw [writeGroupDescriptors_eq]

@[simp] theorem writeGroupDescriptors_readOnly : fs.writeGroupDescriptors.readOnly = fs.readOnly := by
  rw [writeGroupDescriptors_eq]

@[simp] theorem writeGroupDescriptors_inodeSize : fs.writeGroupDescriptors.inodeSize = fs.inodeSize := by
  rw [writeGroupDescriptors_eq]

theorem writeGroupDescriptors_blocks_of_outside {b : ℕ}
    (outside : ¬(fs.gdtBlock ≤ b ∧ b < fs.gdtBlock + fs.gdtBlocks)) :
    fs.writeGroupDescriptors.blocks b = fs.blocks b := by
  unfold writeGroupDescriptors
  split_ifs
  · rfl
  · simp only [if_neg outside]

end Operations

def cachedFree (fs : Ext2Filesystem) : Bool → ℕ
  | true => fs.freeInodes
  | false => fs.freeBlocks

@[simp] theorem cachedFree_true : fs.cachedFree true = fs.freeInodes := rfl
@[simp] theorem cachedFree_false : fs.cachedFree false = fs.freeBlocks := rfl

def entriesInGroup (fs : Ext2Filesystem) (g : ℕ) : Bool → ℕ
  | true => fs.inodesInGroup g
  | false => fs.blocksInGroup g

@[simp] theorem entriesInGroup_true (g : ℕ) : fs.entriesInGroup g true = fs.inodesInGroup g := rfl
@[simp] theorem entriesInGroup_false (g : ℕ) : fs.entriesInGroup g false = fs.blocksInGroup g := rfl

def bitmapOf (fs : Ext2Filesystem) (g : ℕ) (inode : Bool) : ℕ → UInt8 :=
  fs.bitmapAt ((fs.groupDescriptors g).bitmap inode)

theorem entriesInGroup_le_perGroup (g : ℕ) (a : Bool) :
    fs.entriesInGroup g a ≤ fs.superblock.perGroup a := by
  cases a
  · exact min_le_left _ _
  · exact min_le_left _ _

theorem sum_entriesInGroup_le (n : ℕ) (a : Bool) :
    ∑ g ∈ Finset.range n, fs.entriesInGroup g a ≤ fs.superblock.count a := by
  cases a
  · have total := sum_min_le fs.superblock.sBlocksPerGroup fs.superblock.sBlocksCount
      fs.superblock.sFirstDataBlock n
    simp only [entriesInGroup, blocksInGroup, Superblock.count, total]
    omega
  · have total := sum_min_le fs.superblock.sInodesPerGroup fs.superblock.sInodesCount 0 n
    simp only [zero_add] at total
    simp only [entriesInGroup, inodesInGroup, Superblock.count, total]
    omega

/-- One kind's counters agree with its bitmaps: each group counts the clear
bits of its entries, the superblock counts the groups' sum, and the cached
total repeats the superblock. -/
structure Tallied (fs : Ext2Filesystem) (a : Bool) : Prop where
  groups : ∀ g < fs.numBlockGroups,
    (fs.groupDescriptors g).freeCount a = Bitmap.clearCount (fs.bitmapOf g a) (fs.entriesInGroup g a)
  super : fs.superblock.freeCount a =
    ∑ g ∈ Finset.range fs.numBlockGroups, (fs.groupDescriptors g).freeCount a
  cached : fs.cachedFree a = fs.superblock.freeCount a

/-- What the counters' invariant needs of the layout: the bitmaps are
distinct blocks outside the descriptor table, a group's entries fit in its
bitmap and in a `uint16_t` count, the totals fit in a `uint32_t`, and the
data blocks start at block 0 or 1. -/
structure Layout (fs : Ext2Filesystem) : Prop where
  bitmapsDistinct : ∀ g < fs.numBlockGroups, ∀ h < fs.numBlockGroups, ∀ a b : Bool,
    (fs.groupDescriptors g).bitmap a = (fs.groupDescriptors h).bitmap b → g = h ∧ a = b
  bitmapsOutsideGdt : ∀ g < fs.numBlockGroups, ∀ a : Bool,
    ¬(fs.gdtBlock ≤ (fs.groupDescriptors g).bitmap a ∧
      (fs.groupDescriptors g).bitmap a < fs.gdtBlock + fs.gdtBlocks)
  perGroup_pos : ∀ a, 0 < fs.superblock.perGroup a
  perGroup_fit : ∀ a, fs.superblock.perGroup a ≤ fs.blockSize * 8
  perGroup_lt : ∀ a, fs.superblock.perGroup a < 2 ^ 16
  count_lt : ∀ a, fs.superblock.count a < 2 ^ 32
  firstDataBlock_le : fs.superblock.sFirstDataBlock ≤ 1

theorem Layout.entries_fit (layout : fs.Layout) (g : ℕ) (a : Bool) :
    fs.entriesInGroup g a ≤ fs.blockSize * 8 :=
  (fs.entriesInGroup_le_perGroup g a).trans (layout.perGroup_fit a)

theorem Layout.bitmap_ne (layout : fs.Layout) {g h : ℕ} {a c : Bool} (hg : g < fs.numBlockGroups)
    (hh : h < fs.numBlockGroups) (off : (h, c) ≠ (g, a)) :
    (fs.groupDescriptors h).bitmap c ≠ (fs.groupDescriptors g).bitmap a := fun same => by
  obtain ⟨rfl, rfl⟩ := layout.bitmapsDistinct h hh g hg c a same
  exact off rfl

theorem counted_iff (layout : fs.Layout) : fs.Counted ↔ fs.Tallied false ∧ fs.Tallied true := by
  have bits : ∀ g a, clearBits (fs.bitmapOf g a) fs.blockSize (fs.entriesInGroup g a) =
      Bitmap.clearCount (fs.bitmapOf g a) (fs.entriesInGroup g a) := fun g a =>
    clearBits_eq_clearCount (layout.entries_fit g a)
  constructor
  · intro counted
    refine ⟨⟨fun g hg => ?_, counted.superBlocks, counted.cachedBlocks⟩,
      ⟨fun g hg => ?_, counted.superInodes, counted.cachedInodes⟩⟩
    · rw [← bits g false]
      exact counted.groupBlocks g hg
    · rw [← bits g true]
      exact counted.groupInodes g hg
  · rintro ⟨blocks, inodes⟩
    exact ⟨fun g hg => (blocks.groups g hg).trans (bits g false).symm,
      fun g hg => (inodes.groups g hg).trans (bits g true).symm,
      blocks.super, inodes.super, blocks.cached, inodes.cached⟩

structure SameShape (fs fs' : Ext2Filesystem) : Prop where
  numBlockGroups : fs'.numBlockGroups = fs.numBlockGroups
  blockSize : fs'.blockSize = fs.blockSize
  bitmap : ∀ g a, (fs'.groupDescriptors g).bitmap a = (fs.groupDescriptors g).bitmap a
  count : ∀ a, fs'.superblock.count a = fs.superblock.count a
  perGroup : ∀ a, fs'.superblock.perGroup a = fs.superblock.perGroup a
  firstDataBlock : fs'.superblock.sFirstDataBlock = fs.superblock.sFirstDataBlock

theorem SameShape.gdtBlock (h : SameShape fs fs') : fs'.gdtBlock = fs.gdtBlock := by
  unfold Ext2Filesystem.gdtBlock; rw [h.blockSize]

theorem SameShape.gdtBlocks (h : SameShape fs fs') : fs'.gdtBlocks = fs.gdtBlocks := by
  unfold Ext2Filesystem.gdtBlocks; rw [h.blockSize, h.numBlockGroups]

theorem SameShape.entriesInGroup (h : SameShape fs fs') (g : ℕ) (a : Bool) :
    fs'.entriesInGroup g a = fs.entriesInGroup g a := by
  have count := h.count a
  have perGroup := h.perGroup a
  cases a
  · simp only [Superblock.count_false, Superblock.perGroup_false] at count perGroup
    simp only [entriesInGroup_false, blocksInGroup, count, perGroup, h.firstDataBlock]
  · simp only [Superblock.count_true, Superblock.perGroup_true] at count perGroup
    simp only [entriesInGroup_true, inodesInGroup, count, perGroup]

theorem Layout.of_sameShape (layout : fs.Layout) (h : SameShape fs fs') : fs'.Layout where
  bitmapsDistinct g hg k hk a b same := by
    rw [h.bitmap, h.bitmap] at same
    rw [h.numBlockGroups] at hg hk
    exact layout.bitmapsDistinct g hg k hk a b same
  bitmapsOutsideGdt g hg a := by
    rw [h.bitmap, h.gdtBlock, h.gdtBlocks]
    exact layout.bitmapsOutsideGdt g (h.numBlockGroups ▸ hg) a
  perGroup_pos a := h.perGroup a ▸ layout.perGroup_pos a
  perGroup_fit a := by
    rw [h.perGroup, h.blockSize]
    exact layout.perGroup_fit a
  perGroup_lt a := h.perGroup a ▸ layout.perGroup_lt a
  count_lt a := h.count a ▸ layout.count_lt a
  firstDataBlock_le := h.firstDataBlock ▸ layout.firstDataBlock_le

@[simp] theorem cachedFree_writeGroupDescriptors (a : Bool) :
    fs.writeGroupDescriptors.cachedFree a = fs.cachedFree a := by
  cases a <;> simp

theorem sameShape_writeGroupDescriptors : SameShape fs fs.writeGroupDescriptors :=
  ⟨by simp, by simp, fun _ _ => by simp, fun _ => by simp, fun _ => by simp, by simp⟩

section Tally

variable {a : Bool} {g : ℕ}

theorem counted_iff_forall (layout : fs.Layout) : fs.Counted ↔ ∀ a, fs.Tallied a := by
  rw [counted_iff layout]
  exact ⟨fun ⟨blocks, inodes⟩ a => by cases a <;> assumption, fun all => ⟨all false, all true⟩⟩

theorem Tallied.count_le_entries (tallied : fs.Tallied a) (hg : g < fs.numBlockGroups) :
    (fs.groupDescriptors g).freeCount a ≤ fs.entriesInGroup g a := by
  rw [tallied.groups g hg]
  exact Bitmap.clearCount_le _ _

theorem Tallied.count_le_super (tallied : fs.Tallied a) (hg : g < fs.numBlockGroups) :
    (fs.groupDescriptors g).freeCount a ≤ fs.superblock.freeCount a := by
  rw [tallied.super]
  exact Finset.single_le_sum (f := fun h => (fs.groupDescriptors h).freeCount a)
    (fun _ _ => Nat.zero_le _) (Finset.mem_range.mpr hg)

theorem Tallied.super_le (tallied : fs.Tallied a) : fs.superblock.freeCount a ≤ fs.superblock.count a :=
  calc fs.superblock.freeCount a
      = ∑ h ∈ Finset.range fs.numBlockGroups, (fs.groupDescriptors h).freeCount a := tallied.super
    _ ≤ ∑ h ∈ Finset.range fs.numBlockGroups, fs.entriesInGroup h a :=
        Finset.sum_le_sum fun _ hh => tallied.count_le_entries (Finset.mem_range.mp hh)
    _ ≤ fs.superblock.count a := fs.sum_entriesInGroup_le _ a

theorem Tallied.super_lt (tallied : fs.Tallied a) (hg : g < fs.numBlockGroups)
    (used : (fs.groupDescriptors g).freeCount a < fs.entriesInGroup g a) :
    fs.superblock.freeCount a < fs.superblock.count a :=
  calc fs.superblock.freeCount a
      = ∑ h ∈ Finset.range fs.numBlockGroups, (fs.groupDescriptors h).freeCount a := tallied.super
    _ < ∑ h ∈ Finset.range fs.numBlockGroups, fs.entriesInGroup h a :=
        Finset.sum_lt_sum (fun _ hh => tallied.count_le_entries (Finset.mem_range.mp hh))
          ⟨g, Finset.mem_range.mpr hg, used⟩
    _ ≤ fs.superblock.count a := fs.sum_entriesInGroup_le _ a

theorem bitmapOf_writeGroupDescriptors (layout : fs.Layout) (hg : g < fs.numBlockGroups) (a : Bool) :
    fs.writeGroupDescriptors.bitmapOf g a = fs.bitmapOf g a := by
  unfold bitmapOf bitmapAt
  rw [writeGroupDescriptors_groupDescriptors,
    writeGroupDescriptors_blocks_of_outside (layout.bitmapsOutsideGdt g hg a)]

theorem Tallied.writeGroupDescriptors (layout : fs.Layout) (tallied : fs.Tallied a) :
    fs.writeGroupDescriptors.Tallied a where
  groups g hg := by
    rw [writeGroupDescriptors_numBlockGroups] at hg
    rw [bitmapOf_writeGroupDescriptors layout hg, sameShape_writeGroupDescriptors.entriesInGroup,
      writeGroupDescriptors_groupDescriptors]
    exact tallied.groups g hg
  super := by simpa using tallied.super
  cached := by simpa using tallied.cached

/-- What a claim or a release of kind `a` in group `g` leaves alone: the
shape, every other bitmap and group count, and the other kind's totals. -/
structure Retally (fs fs' : Ext2Filesystem) (g : ℕ) (a : Bool) : Prop where
  shape : SameShape fs fs'
  bitmapsOff : ∀ h < fs.numBlockGroups, ∀ c, (h, c) ≠ (g, a) → fs'.bitmapOf h c = fs.bitmapOf h c
  countsOff : ∀ h c, (h, c) ≠ (g, a) →
    (fs'.groupDescriptors h).freeCount c = (fs.groupDescriptors h).freeCount c
  superOff : fs'.superblock.freeCount (!a) = fs.superblock.freeCount (!a)
  cachedOff : fs'.cachedFree (!a) = fs.cachedFree (!a)

theorem Tallied.retally_other (tallied : fs.Tallied (!a)) (r : Retally fs fs' g a) :
    fs'.Tallied (!a) where
  groups h hh := by
    have off : (h, !a) ≠ (g, a) := by simp
    rw [r.shape.numBlockGroups] at hh
    rw [r.countsOff h _ off, r.bitmapsOff h hh _ off, r.shape.entriesInGroup]
    exact tallied.groups h hh
  super := by
    rw [r.superOff, r.shape.numBlockGroups, tallied.super]
    exact Finset.sum_congr rfl fun h _ => (r.countsOff h _ (by simp)).symm
  cached := by
    rw [r.cachedOff, r.superOff]
    exact tallied.cached

theorem Tallied.retally (tallied : fs.Tallied a) (r : Retally fs fs' g a) (hg : g < fs.numBlockGroups)
    (group : (fs'.groupDescriptors g).freeCount a =
      Bitmap.clearCount (fs'.bitmapOf g a) (fs.entriesInGroup g a))
    (super : fs'.superblock.freeCount a + (fs.groupDescriptors g).freeCount a =
      fs.superblock.freeCount a + (fs'.groupDescriptors g).freeCount a)
    (cached : fs'.cachedFree a = fs'.superblock.freeCount a) : fs'.Tallied a where
  groups h hh := by
    rw [r.shape.entriesInGroup]
    by_cases same : h = g
    · subst same
      exact group
    · have off : (h, a) ≠ (g, a) := by simp [same]
      rw [r.shape.numBlockGroups] at hh
      rw [r.countsOff h a off, r.bitmapsOff h hh a off]
      exact tallied.groups h hh
  super := by
    have sums := sum_add_of_eq_off hg fun h ne => r.countsOff h a (by simp [ne])
    rw [← tallied.super] at sums
    rw [r.shape.numBlockGroups]
    omega
  cached := cached

end Tally

section Claims

variable {X : Ext2Filesystem} {a : Bool} {g i : ℕ}

theorem bitmap_update {gds : ℕ → GroupDescriptor} {d : GroupDescriptor}
    (same : ∀ c, d.bitmap c = (gds g).bitmap c) (h : ℕ) (c : Bool) :
    (Function.update gds g d h).bitmap c = (gds h).bitmap c := by
  rcases eq_or_ne h g with rfl | ne
  · rw [Function.update_self, same]
  · rw [Function.update_of_ne ne]

theorem freeCount_update_off {gds : ℕ → GroupDescriptor} {d : GroupDescriptor} {h : ℕ} {c : Bool}
    (other : d.freeCount (!a) = (gds g).freeCount (!a)) (off : (h, c) ≠ (g, a)) :
    (Function.update gds g d h).freeCount c = (gds h).freeCount c := by
  rcases eq_or_ne h g with rfl | ne
  · have flip : c = !a := by
      cases a <;> cases c <;> simp_all
    rw [Function.update_self, flip, other]
  · rw [Function.update_of_ne ne]

/-- How `X` follows from `fs` by the write-back of `allocate_*` and
`free_*`: group `g`'s bitmap of kind `a` now reads `new`, the group's,
the superblock's and the cached counts of that kind are `count`, `super` and
`cached`, and the rest is a retally. -/
structure WriteBack (fs X : Ext2Filesystem) (g : ℕ) (a : Bool) (new : ℕ → UInt8)
    (count super cached : ℕ) : Prop where
  retally : Retally fs X g a
  bitmap : X.bitmapOf g a = new
  count : (X.groupDescriptors g).freeCount a = count
  super : X.superblock.freeCount a = super
  cached : X.cachedFree a = cached

theorem WriteBack.of_write {new : ℕ → UInt8} {count super cached : ℕ} (layout : fs.Layout)
    (hg : g < fs.numBlockGroups) (shape : SameShape fs X) (nz : (fs.groupDescriptors g).bitmap a ≠ 0)
    (blocks : X.blocks = Function.update fs.blocks ((fs.groupDescriptors g).bitmap a) new)
    (countsOff : ∀ h c, (h, c) ≠ (g, a) →
      (X.groupDescriptors h).freeCount c = (fs.groupDescriptors h).freeCount c)
    (superOff : X.superblock.freeCount (!a) = fs.superblock.freeCount (!a))
    (cachedOff : X.cachedFree (!a) = fs.cachedFree (!a))
    (hcount : (X.groupDescriptors g).freeCount a = count) (hsuper : X.superblock.freeCount a = super)
    (hcached : X.cachedFree a = cached) :
    WriteBack fs X g a new count super cached := by
  have read : ∀ h c, X.bitmapOf h c =
      if (fs.groupDescriptors h).bitmap c = 0 then fun _ => 0
      else Function.update fs.blocks ((fs.groupDescriptors g).bitmap a) new
        ((fs.groupDescriptors h).bitmap c) := by
    intro h c
    rw [bitmapOf, bitmapAt, shape.bitmap, blocks]
  refine ⟨⟨shape, fun h hh c off => ?_, countsOff, superOff, cachedOff⟩, ?_, hcount, hsuper, hcached⟩
  · rw [read, Function.update_of_ne (layout.bitmap_ne hg hh off)]
    rfl
  · rw [read, if_neg nz, Function.update_self]

theorem WriteBack.blocks {new : ℕ → UInt8} {count super cached : ℕ} (layout : fs.Layout)
    (hg : g < fs.numBlockGroups) (nz : (fs.groupDescriptors g).bgBlockBitmap ≠ 0) :
    WriteBack fs { fs with
      blocks := Function.update fs.blocks (fs.groupDescriptors g).bgBlockBitmap new
      groupDescriptors := Function.update fs.groupDescriptors g
        { fs.groupDescriptors g with bgFreeBlocksCount := count }
      superblock := { fs.superblock with sFreeBlocksCount := super }
      freeBlocks := cached } g false new count super cached :=
  WriteBack.of_write layout hg
    ⟨rfl, rfl, bitmap_update fun c => by cases c <;> rfl, fun a => by cases a <;> rfl,
      fun a => by cases a <;> rfl, rfl⟩
    nz rfl (fun _ _ off => freeCount_update_off rfl off) rfl rfl
    (by simp) rfl rfl

theorem WriteBack.inodes {new : ℕ → UInt8} {count super cached usedDirs : ℕ} (layout : fs.Layout)
    (hg : g < fs.numBlockGroups) (nz : (fs.groupDescriptors g).bgInodeBitmap ≠ 0) :
    WriteBack fs { fs with
      blocks := Function.update fs.blocks (fs.groupDescriptors g).bgInodeBitmap new
      groupDescriptors := Function.update fs.groupDescriptors g
        { fs.groupDescriptors g with bgFreeInodesCount := count, bgUsedDirsCount := usedDirs }
      superblock := { fs.superblock with sFreeInodesCount := super }
      freeInodes := cached } g true new count super cached :=
  WriteBack.of_write layout hg
    ⟨rfl, rfl, bitmap_update fun c => by cases c <;> rfl, fun a => by cases a <;> rfl,
      fun a => by cases a <;> rfl, rfl⟩
    nz rfl (fun _ _ off => freeCount_update_off rfl off) rfl rfl
    (by simp) rfl rfl

theorem Tallied.claim (layout : fs.Layout) (tallied : fs.Tallied a) (hg : g < fs.numBlockGroups)
    (pos : (fs.groupDescriptors g).freeCount a ≠ 0)
    (found : Bitmap.firstClear (fs.bitmapOf g a) (fs.blockSize * 8) = some i) :
    i < fs.entriesInGroup g a ∧ Bitmap.test (fs.bitmapOf g a) i = false ∧
      Bitmap.clearCount (Bitmap.set (fs.bitmapOf g a) i) (fs.entriesInGroup g a) + 1 =
        (fs.groupDescriptors g).freeCount a := by
  have clear : 0 < Bitmap.clearCount (fs.bitmapOf g a) (fs.entriesInGroup g a) := by
    rw [← tallied.groups g hg]
    omega
  obtain ⟨j, first, lt⟩ := Bitmap.firstClear_lt (layout.entries_fit g a) clear
  obtain rfl : j = i := Option.some.inj (first.symm.trans found)
  have free := (Bitmap.firstClear_spec found).2.1
  have count := Bitmap.clearCount_set (fs.bitmapOf g a) j (fs.entriesInGroup g a)
  rw [if_pos ⟨lt, free⟩, ← tallied.groups g hg] at count
  exact ⟨lt, free, count⟩

theorem Counted.of_retally (layout : fs.Layout) (counted : fs.Counted) (r : Retally fs X g a)
    (tallied : X.Tallied a) : X.writeGroupDescriptors.Layout ∧ X.writeGroupDescriptors.Counted := by
  have layoutX := layout.of_sameShape r.shape
  have layout' := layoutX.of_sameShape sameShape_writeGroupDescriptors
  refine ⟨layout', (counted_iff_forall layout').mpr fun c => ?_⟩
  have kinds : c = a ∨ c = !a := by cases a <;> cases c <;> simp
  rcases kinds with rfl | rfl
  · exact tallied.writeGroupDescriptors layoutX
  · exact (((counted_iff_forall layout).mp counted (!a)).retally_other r).writeGroupDescriptors layoutX

theorem Counted.of_claim (layout : fs.Layout) (counted : fs.Counted) (hg : g < fs.numBlockGroups)
    (pos : (fs.groupDescriptors g).freeCount a ≠ 0)
    (found : Bitmap.firstClear (fs.bitmapOf g a) (fs.blockSize * 8) = some i)
    (write : WriteBack fs X g a (Bitmap.set (fs.bitmapOf g a) i)
      ((fs.groupDescriptors g).freeCount a - 1) ((fs.superblock.freeCount a + 2 ^ 32 - 1) % 2 ^ 32)
      ((fs.cachedFree a + 2 ^ 64 - 1) % 2 ^ 64)) :
    X.writeGroupDescriptors.Layout ∧ X.writeGroupDescriptors.Counted := by
  have tallied := (counted_iff_forall layout).mp counted a
  obtain ⟨-, -, claimed⟩ := tallied.claim layout hg pos found
  have below := tallied.count_le_super hg
  have bound := tallied.super_le
  have fits := layout.count_lt a
  have same := tallied.cached
  refine counted.of_retally layout write.retally (tallied.retally write.retally hg ?_ ?_ ?_)
  · rw [write.count, write.bitmap]
    omega
  · rw [write.super, write.count]
    omega
  · rw [write.cached, write.super, same]
    omega

theorem Counted.of_release (layout : fs.Layout) (counted : fs.Counted) (hg : g < fs.numBlockGroups)
    (lt : i < fs.entriesInGroup g a) (set : Bitmap.test (fs.bitmapOf g a) i = true)
    (write : WriteBack fs X g a (Bitmap.clear (fs.bitmapOf g a) i)
      (((fs.groupDescriptors g).freeCount a + 1) % 2 ^ 16) ((fs.superblock.freeCount a + 1) % 2 ^ 32)
      ((fs.cachedFree a + 1) % 2 ^ 64)) :
    X.writeGroupDescriptors.Layout ∧ X.writeGroupDescriptors.Counted := by
  have tallied := (counted_iff_forall layout).mp counted a
  have released := Bitmap.clearCount_clear (fs.bitmapOf g a) i (fs.entriesInGroup g a)
  rw [if_pos ⟨lt, set⟩, ← tallied.groups g hg] at released
  have room : (fs.groupDescriptors g).freeCount a + 1 ≤ fs.entriesInGroup g a :=
    released ▸ Bitmap.clearCount_le _ _
  have entries := (fs.entriesInGroup_le_perGroup g a).trans_lt (layout.perGroup_lt a)
  have superRoom := tallied.super_lt hg (by omega)
  have fits := layout.count_lt a
  have same := tallied.cached
  refine counted.of_retally layout write.retally (tallied.retally write.retally hg ?_ ?_ ?_)
  · rw [write.count, write.bitmap, released]
    omega
  · rw [write.super, write.count]
    omega
  · rw [write.cached, write.super, same]
    omega

end Claims

section Calls

variable {g b : ℕ}

theorem claimBit_eq_some_ok {bitmapBlock i : ℕ} (h : fs.claimBit bitmapBlock = some (.ok (fs', i))) :
    bitmapBlock ≠ 0 ∧ Bitmap.firstClear (fs.bitmapAt bitmapBlock) (fs.blockSize * 8) = some i ∧
      fs' = { fs with
        blocks := Function.update fs.blocks bitmapBlock (Bitmap.set (fs.bitmapAt bitmapBlock) i) } := by
  unfold claimBit at h
  split at h
  · cases h
  · next bitmap read =>
    obtain rfl := readDataBlock_eq_ok read
    split at h
    · cases h
    · next j found =>
      rw [findFreeBit_eq_firstClear] at found
      have lt := (Bitmap.firstClear_spec found).1
      cases written : fs.writeDataBlock bitmapBlock (setBit (fs.bitmapAt bitmapBlock) fs.blockSize j) with
      | error e => simp [written, Except.map] at h
      | ok fs₁ =>
        simp only [written, Except.map, Option.some.injEq, Except.ok.injEq, Prod.mk.injEq] at h
        obtain ⟨rfl, rfl⟩ := h
        obtain ⟨nz, -, rfl⟩ := writeDataBlock_eq_ok written
        rw [setBit_of_lt lt]
        exact ⟨nz, found, rfl⟩

theorem releaseBit_eq_ok_some {bitmapBlock i : ℕ} (h : fs.releaseBit bitmapBlock i = .ok (some fs')) :
    bitmapBlock ≠ 0 ∧ testBit (fs.bitmapAt bitmapBlock) fs.blockSize i = true ∧
      fs' = { fs with
        blocks := Function.update fs.blocks bitmapBlock (clearBit (fs.bitmapAt bitmapBlock) fs.blockSize i) } := by
  unfold releaseBit at h
  split at h
  · cases h
  · next bitmap read =>
    obtain rfl := readDataBlock_eq_ok read
    split at h
    · cases h
    · next set =>
      cases written : fs.writeDataBlock bitmapBlock (clearBit (fs.bitmapAt bitmapBlock) fs.blockSize i) with
      | error e => simp [written, Except.map] at h
      | ok fs₁ =>
        simp only [written, Except.map, Except.ok.injEq, Option.some.injEq] at h
        subst h
        obtain ⟨nz, -, rfl⟩ := writeDataBlock_eq_ok written
        exact ⟨nz, by simpa using set, rfl⟩

theorem exists_of_tryGroups {α : Type} {n start : ℕ} {attempt : ℕ → Option (Except ℤ α)} {e : ℤ}
    {r : α} (h : (((List.range n).map fun k => (start + k) % 2 ^ 32 % n).findSome? attempt).getD
      (.error e) = .ok r) :
    ∃ g < n, attempt g = some (.ok r) := by
  cases found : ((List.range n).map fun k => (start + k) % 2 ^ 32 % n).findSome? attempt with
  | none =>
    rw [found] at h
    cases h
  | some x =>
    rw [found, Option.getD_some] at h
    obtain ⟨g, mem, step⟩ := List.exists_of_findSome?_eq_some found
    obtain ⟨k, kn, rfl⟩ := List.mem_map.mp mem
    have : 0 < n := by
      have := List.mem_range.mp kn
      omega
    exact ⟨_, Nat.mod_lt _ this, h ▸ step⟩

theorem allocateBlockIn_eq_some_ok (h : fs.allocateBlockIn g = some (.ok (fs', b))) :
    ∃ fs₁ i, (fs.groupDescriptors g).bgFreeBlocksCount ≠ 0 ∧
      fs.claimBit (fs.groupDescriptors g).bgBlockBitmap = some (.ok (fs₁, i)) ∧
      b = (fs₁.superblock.sFirstDataBlock + g * fs₁.superblock.sBlocksPerGroup + i) % 2 ^ 32 ∧
      fs' = Ext2Filesystem.writeGroupDescriptors { fs₁ with
        groupDescriptors := Function.update fs₁.groupDescriptors g
          { fs.groupDescriptors g with
            bgFreeBlocksCount := (fs.groupDescriptors g).bgFreeBlocksCount - 1 }
        superblock := { fs₁.superblock with
          sFreeBlocksCount := (fs₁.superblock.sFreeBlocksCount + 2 ^ 32 - 1) % 2 ^ 32 }
        freeBlocks := (fs₁.freeBlocks + 2 ^ 64 - 1) % 2 ^ 64 } := by
  unfold allocateBlockIn at h
  dsimp only at h
  split_ifs at h with zero
  obtain ⟨claimed, claim, written⟩ := Option.map_eq_some_iff.mp h
  cases claimed with
  | error e => cases written
  | ok p =>
    obtain ⟨fs₁, i⟩ := p
    simp only [Except.map, Except.ok.injEq, Prod.mk.injEq] at written
    obtain ⟨rfl, rfl⟩ := written
    exact ⟨fs₁, i, zero, claim, rfl, rfl⟩

theorem allocateInodeIn_eq_some_ok {isDirectory : Bool}
    (h : fs.allocateInodeIn isDirectory g = some (.ok (fs', b))) :
    ∃ fs₁ i, (fs.groupDescriptors g).bgFreeInodesCount ≠ 0 ∧
      fs.claimBit (fs.groupDescriptors g).bgInodeBitmap = some (.ok (fs₁, i)) ∧
      b = (1 + g * fs₁.superblock.sInodesPerGroup + i) % 2 ^ 32 ∧
      fs' = Ext2Filesystem.writeGroupDescriptors { fs₁ with
        groupDescriptors := Function.update fs₁.groupDescriptors g
          { fs.groupDescriptors g with
            bgFreeInodesCount := (fs.groupDescriptors g).bgFreeInodesCount - 1
            bgUsedDirsCount := if isDirectory then
              ((fs.groupDescriptors g).bgUsedDirsCount + 1) % 2 ^ 16
              else (fs.groupDescriptors g).bgUsedDirsCount }
        superblock := { fs₁.superblock with
          sFreeInodesCount := (fs₁.superblock.sFreeInodesCount + 2 ^ 32 - 1) % 2 ^ 32 }
        freeInodes := (fs₁.freeInodes + 2 ^ 64 - 1) % 2 ^ 64 } := by
  unfold allocateInodeIn at h
  dsimp only at h
  by_cases zero : (fs.groupDescriptors g).bgFreeInodesCount = 0
  · rw [if_pos zero] at h
    cases h
  rw [if_neg zero] at h
  obtain ⟨claimed, claim, written⟩ := Option.map_eq_some_iff.mp h
  cases claimed with
  | error e => cases written
  | ok p =>
    obtain ⟨fs₁, i⟩ := p
    simp only [Except.map, Except.ok.injEq, Prod.mk.injEq] at written
    obtain ⟨rfl, rfl⟩ := written
    exact ⟨fs₁, i, zero, claim, rfl, rfl⟩

theorem freeBlock_eq_ok (h : fs.freeBlock b = .ok fs') :
    ∃ g i, b ≠ 0 ∧ b < fs.superblock.sBlocksCount ∧
      g = (b + 2 ^ 32 - fs.superblock.sFirstDataBlock) % 2 ^ 32 / fs.superblock.sBlocksPerGroup ∧
      i = (b + 2 ^ 32 - fs.superblock.sFirstDataBlock) % 2 ^ 32 % fs.superblock.sBlocksPerGroup ∧
      g < fs.numBlockGroups ∧
      (fs.releaseBit (fs.groupDescriptors g).bgBlockBitmap i = .ok none ∧ fs' = fs ∨
        ∃ fs₁, fs.releaseBit (fs.groupDescriptors g).bgBlockBitmap i = .ok (some fs₁) ∧
          fs' = Ext2Filesystem.writeGroupDescriptors { fs₁ with
            groupDescriptors := Function.update fs₁.groupDescriptors g
              { fs.groupDescriptors g with
                bgFreeBlocksCount := ((fs.groupDescriptors g).bgFreeBlocksCount + 1) % 2 ^ 16 }
            superblock := { fs₁.superblock with
              sFreeBlocksCount := (fs₁.superblock.sFreeBlocksCount + 1) % 2 ^ 32 }
            freeBlocks := (fs₁.freeBlocks + 1) % 2 ^ 64 }) := by
  unfold freeBlock at h
  dsimp only at h
  split_ifs at h with bad outside
  refine ⟨_, _, fun zero => bad (.inl zero), by omega, rfl, rfl, by omega, ?_⟩
  split at h
  · cases h
  · next released =>
    cases h
    exact .inl ⟨released, rfl⟩
  · next fs₁ released =>
    cases h
    exact .inr ⟨fs₁, released, rfl⟩

theorem freeInode_eq_ok {inodeNum : ℕ} (h : fs.freeInode inodeNum = .ok fs') :
    inodeNum ≠ 0 ∧ inodeNum ≤ fs.superblock.sInodesCount ∧ fs.getBlockGroup inodeNum < fs.numBlockGroups ∧
      (fs.releaseBit (fs.groupDescriptors (fs.getBlockGroup inodeNum)).bgInodeBitmap
          (fs.getGroupIndex inodeNum) = .ok none ∧ fs' = fs ∨
        ∃ fs₁ usedDirs, fs.releaseBit (fs.groupDescriptors (fs.getBlockGroup inodeNum)).bgInodeBitmap
            (fs.getGroupIndex inodeNum) = .ok (some fs₁) ∧
          fs' = Ext2Filesystem.writeGroupDescriptors { fs₁ with
            groupDescriptors := Function.update fs₁.groupDescriptors (fs.getBlockGroup inodeNum)
              { fs.groupDescriptors (fs.getBlockGroup inodeNum) with
                bgFreeInodesCount :=
                  ((fs.groupDescriptors (fs.getBlockGroup inodeNum)).bgFreeInodesCount + 1) % 2 ^ 16
                bgUsedDirsCount := usedDirs }
            superblock := { fs₁.superblock with
              sFreeInodesCount := (fs₁.superblock.sFreeInodesCount + 1) % 2 ^ 32 }
            freeInodes := (fs₁.freeInodes + 1) % 2 ^ 64 }) := by
  unfold freeInode at h
  dsimp only at h
  by_cases bad : inodeNum = 0 ∨ fs.superblock.sInodesCount < inodeNum
  · rw [if_pos bad] at h
    cases h
  by_cases outside : fs.numBlockGroups ≤ fs.getBlockGroup inodeNum
  · rw [if_neg bad, if_pos outside] at h
    cases h
  rw [if_neg bad, if_neg outside] at h
  refine ⟨fun zero => bad (.inl zero), by omega, by omega, ?_⟩
  split at h
  · cases h
  · next released =>
    cases h
    exact .inl ⟨released, rfl⟩
  · next fs₁ released =>
    cases h
    exact .inr ⟨fs₁, _, released, rfl⟩

end Calls

section Preservation

variable {g b : ℕ}

theorem Counted.allocateBlockIn (layout : fs.Layout) (counted : fs.Counted) (hg : g < fs.numBlockGroups)
    (h : fs.allocateBlockIn g = some (.ok (fs', b))) : fs'.Layout ∧ fs'.Counted := by
  obtain ⟨fs₁, i, pos, claim, -, rfl⟩ := allocateBlockIn_eq_some_ok h
  obtain ⟨nz, found, rfl⟩ := claimBit_eq_some_ok claim
  exact counted.of_claim (a := false) layout hg pos found (WriteBack.blocks layout hg nz)

theorem Counted.allocateInodeIn (layout : fs.Layout) (counted : fs.Counted) {isDirectory : Bool}
    (hg : g < fs.numBlockGroups) (h : fs.allocateInodeIn isDirectory g = some (.ok (fs', b))) :
    fs'.Layout ∧ fs'.Counted := by
  obtain ⟨fs₁, i, pos, claim, -, rfl⟩ := allocateInodeIn_eq_some_ok h
  obtain ⟨nz, found, rfl⟩ := claimBit_eq_some_ok claim
  exact counted.of_claim (a := true) layout hg pos found (WriteBack.inodes layout hg nz)

theorem Counted.allocateBlock (layout : fs.Layout) (counted : fs.Counted) {preferredGroup : ℕ}
    (h : fs.allocateBlock preferredGroup = .ok (fs', b)) : fs'.Layout ∧ fs'.Counted := by
  obtain ⟨g, hg, attempt⟩ := exists_of_tryGroups h
  exact counted.allocateBlockIn layout hg attempt

theorem Counted.allocateInode (layout : fs.Layout) (counted : fs.Counted) {parentDirInode : ℕ}
    {isDirectory : Bool} (h : fs.allocateInode parentDirInode isDirectory = .ok (fs', b)) :
    fs'.Layout ∧ fs'.Counted := by
  obtain ⟨g, hg, attempt⟩ := exists_of_tryGroups h
  exact counted.allocateInodeIn layout hg attempt

theorem Counted.freeBlock (layout : fs.Layout) (counted : fs.Counted) (h : fs.freeBlock b = .ok fs') :
    fs'.Layout ∧ fs'.Counted := by
  obtain ⟨g, i, nz, lt, rfl, rfl, hg, ⟨-, rfl⟩ | ⟨fs₁, released, rfl⟩⟩ := freeBlock_eq_ok h
  · exact ⟨layout, counted⟩
  obtain ⟨bitmapNz, set, rfl⟩ := releaseBit_eq_ok_some released
  have per := layout.perGroup_pos false
  have fit := layout.perGroup_fit false
  have first := layout.firstDataBlock_le
  have count := layout.count_lt false
  simp only [Superblock.perGroup, Superblock.count] at per fit count
  have bit := Nat.mod_lt ((b + 2 ^ 32 - fs.superblock.sFirstDataBlock) % 2 ^ 32) per
  have split := Nat.div_add_mod' ((b + 2 ^ 32 - fs.superblock.sFirstDataBlock) % 2 ^ 32)
    fs.superblock.sBlocksPerGroup
  have entry : (b + 2 ^ 32 - fs.superblock.sFirstDataBlock) % 2 ^ 32 % fs.superblock.sBlocksPerGroup <
      fs.entriesInGroup ((b + 2 ^ 32 - fs.superblock.sFirstDataBlock) % 2 ^ 32 /
        fs.superblock.sBlocksPerGroup) false := by
    simp only [entriesInGroup, blocksInGroup]
    omega
  rw [testBit_of_lt (by omega)] at set
  rw [clearBit_of_lt (by omega)]
  exact counted.of_release (a := false) layout hg entry set (WriteBack.blocks layout hg bitmapNz)

theorem Counted.freeInode (layout : fs.Layout) (counted : fs.Counted) {inodeNum : ℕ}
    (h : fs.freeInode inodeNum = .ok fs') : fs'.Layout ∧ fs'.Counted := by
  obtain ⟨nz, le, hg, ⟨-, rfl⟩ | ⟨fs₁, usedDirs, released, rfl⟩⟩ := freeInode_eq_ok h
  · exact ⟨layout, counted⟩
  obtain ⟨bitmapNz, set, rfl⟩ := releaseBit_eq_ok_some released
  have per := layout.perGroup_pos true
  have fit := layout.perGroup_fit true
  have count := layout.count_lt true
  simp only [Superblock.perGroup, Superblock.count] at per fit count
  have bit := Nat.mod_lt ((inodeNum + 2 ^ 32 - 1) % 2 ^ 32) per
  have split := Nat.div_add_mod' ((inodeNum + 2 ^ 32 - 1) % 2 ^ 32) fs.superblock.sInodesPerGroup
  have entry : fs.getGroupIndex inodeNum < fs.entriesInGroup (fs.getBlockGroup inodeNum) true := by
    simp only [entriesInGroup, inodesInGroup, getGroupIndex, getBlockGroup]
    omega
  have small : fs.getGroupIndex inodeNum < fs.blockSize * 8 := by
    simp only [getGroupIndex]
    omega
  rw [testBit_of_lt small] at set
  rw [clearBit_of_lt small]
  exact counted.of_release (a := true) layout hg entry set (WriteBack.inodes layout hg bitmapNz)

end Preservation

end Ext2Filesystem

inductive AllocCall where
  | allocateBlock (preferredGroup : ℕ)
  | freeBlock (blockNum : ℕ)
  | allocateInode (parentDirInode : ℕ) (isDirectory : Bool)
  | freeInode (inodeNum : ℕ)

/-- The filesystem after a call; a call that fails returns its error before
it writes anything. -/
def AllocCall.apply (fs : Ext2Filesystem) : AllocCall → Ext2Filesystem
  | .allocateBlock preferredGroup => match fs.allocateBlock preferredGroup with
    | .ok (fs', _) => fs'
    | .error _ => fs
  | .freeBlock blockNum => match fs.freeBlock blockNum with
    | .ok fs' => fs'
    | .error _ => fs
  | .allocateInode parentDirInode isDirectory => match fs.allocateInode parentDirInode isDirectory with
    | .ok (fs', _) => fs'
    | .error _ => fs
  | .freeInode inodeNum => match fs.freeInode inodeNum with
    | .ok fs' => fs'
    | .error _ => fs

def runCalls (fs : Ext2Filesystem) (calls : List AllocCall) : Ext2Filesystem :=
  calls.foldl AllocCall.apply fs

namespace Ext2Filesystem

variable {fs : Ext2Filesystem}

theorem Counted.apply (layout : fs.Layout) (counted : fs.Counted) (call : AllocCall) :
    (call.apply fs).Layout ∧ (call.apply fs).Counted := by
  cases call with
  | allocateBlock preferredGroup =>
    cases result : fs.allocateBlock preferredGroup with
    | ok r =>
      obtain ⟨fs', b⟩ := r
      rw [AllocCall.apply, result]
      exact counted.allocateBlock layout result
    | error e =>
      rw [AllocCall.apply, result]
      exact ⟨layout, counted⟩
  | freeBlock blockNum =>
    cases result : fs.freeBlock blockNum with
    | ok fs' =>
      rw [AllocCall.apply, result]
      exact counted.freeBlock layout result
    | error e =>
      rw [AllocCall.apply, result]
      exact ⟨layout, counted⟩
  | allocateInode parentDirInode isDirectory =>
    cases result : fs.allocateInode parentDirInode isDirectory with
    | ok r =>
      obtain ⟨fs', inodeNum⟩ := r
      rw [AllocCall.apply, result]
      exact counted.allocateInode layout result
    | error e =>
      rw [AllocCall.apply, result]
      exact ⟨layout, counted⟩
  | freeInode inodeNum =>
    cases result : fs.freeInode inodeNum with
    | ok fs' =>
      rw [AllocCall.apply, result]
      exact counted.freeInode layout result
    | error e =>
      rw [AllocCall.apply, result]
      exact ⟨layout, counted⟩

theorem Counted.runCalls (layout : fs.Layout) (counted : fs.Counted) (calls : List AllocCall) :
    (runCalls fs calls).Layout ∧ (runCalls fs calls).Counted := by
  induction calls generalizing fs with
  | nil => exact ⟨layout, counted⟩
  | cons call rest ih =>
    obtain ⟨layout', counted'⟩ := counted.apply layout call
    exact ih layout' counted'

end Ext2Filesystem

end Xinim.Ext2
