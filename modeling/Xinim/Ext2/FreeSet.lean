import Mathlib.Algebra.BigOperators.Group.Finset.Basic
import Mathlib.Algebra.Group.Embedding
import Xinim.Data.Pool
import Xinim.Ext2.Counted

/-! What the ext2 bitmaps stand for: a set of free blocks and a set of free
inodes. Block `b` is bit `(b - s_first_data_block) % s_blocks_per_group` of
group `(b - s_first_data_block) / s_blocks_per_group`, and inode `n` is bit
`(n - 1) % s_inodes_per_group` of group `(n - 1) / s_inodes_per_group`. On a
counted filesystem the superblock's free counts are the sizes of these sets,
an allocation takes one entry out of its set and a free puts one back: the
allocators refine an allocator of free sets. -/

namespace Xinim.Ext2

namespace Superblock

def first (sb : Superblock) : Bool → ℕ
  | true => 1
  | false => sb.sFirstDataBlock

def limit (sb : Superblock) : Bool → ℕ
  | true => sb.sInodesCount + 1
  | false => sb.sBlocksCount

@[simp] theorem first_true (sb : Superblock) : sb.first true = 1 := rfl
@[simp] theorem limit_true (sb : Superblock) : sb.limit true = sb.sInodesCount + 1 := rfl
@[simp] theorem limit_false (sb : Superblock) : sb.limit false = sb.sBlocksCount := rfl

end Superblock

theorem div_mod_of_lt {per g i : ℕ} (hi : i < per) : (g * per + i) / per = g ∧ (g * per + i) % per = i := by
  have pos : 0 < per := Nat.lt_of_le_of_lt (Nat.zero_le i) hi
  constructor
  · rw [Nat.mul_comm, Nat.mul_add_div pos, Nat.div_eq_of_lt hi, Nat.add_zero]
  · rw [Nat.mul_comm, Nat.mul_add_mod, Nat.mod_eq_of_lt hi]

namespace Ext2Filesystem

variable (fs : Ext2Filesystem)

def entryGroup (a : Bool) (e : ℕ) : ℕ := (e - fs.superblock.first a) / fs.superblock.perGroup a

def entryBit (a : Bool) (e : ℕ) : ℕ := (e - fs.superblock.first a) % fs.superblock.perGroup a

def FreeEntry (a : Bool) (e : ℕ) : Prop :=
  fs.superblock.first a ≤ e ∧ e < fs.superblock.limit a ∧ fs.entryGroup a e < fs.numBlockGroups ∧
    Bitmap.test (fs.bitmapOf (fs.entryGroup a e) a) (fs.entryBit a e) = false

instance (a : Bool) : DecidablePred (fs.FreeEntry a) := fun _ =>
  inferInstanceAs (Decidable (_ ∧ _ ∧ _ ∧ _))

def freeEntries (a : Bool) : Finset ℕ :=
  (Finset.range (fs.superblock.limit a)).filter (fs.FreeEntry a)

/-- Entry `i` of group `g`: what `allocate_block` and `allocate_inode`
return for bit `i`. -/
def entryAt (g : ℕ) (a : Bool) (i : ℕ) : ℕ :=
  fs.superblock.first a + g * fs.superblock.perGroup a + i

variable {fs} {a : Bool} {g h i j : ℕ}

theorem mem_freeEntries {e : ℕ} : e ∈ fs.freeEntries a ↔ fs.FreeEntry a e := by
  unfold freeEntries
  rw [Finset.mem_filter, Finset.mem_range]
  exact ⟨fun ⟨_, free⟩ => free, fun free => ⟨free.2.1, free⟩⟩

section Entries

theorem entryGroup_entryAt (hi : i < fs.superblock.perGroup a) : fs.entryGroup a (fs.entryAt g a i) = g := by
  rw [entryGroup, entryAt, Nat.add_assoc, Nat.add_sub_cancel_left, (div_mod_of_lt hi).1]

theorem entryBit_entryAt (hi : i < fs.superblock.perGroup a) : fs.entryBit a (fs.entryAt g a i) = i := by
  rw [entryBit, entryAt, Nat.add_assoc, Nat.add_sub_cancel_left, (div_mod_of_lt hi).2]

theorem entriesInGroup_eq (g : ℕ) (a : Bool) :
    fs.entriesInGroup g a = min (fs.superblock.perGroup a)
      (fs.superblock.limit a - (fs.superblock.first a + g * fs.superblock.perGroup a)) := by
  cases a
  · rfl
  · simp only [entriesInGroup_true, inodesInGroup, Superblock.perGroup_true, Superblock.limit_true,
      Superblock.first_true]
    omega

theorem entryAt_lt_limit (hi : i < fs.entriesInGroup g a) : fs.entryAt g a i < fs.superblock.limit a := by
  rw [entriesInGroup_eq] at hi
  unfold entryAt
  omega

theorem mem_freeEntries_entryAt (hi : i < fs.entriesInGroup g a) :
    fs.entryAt g a i ∈ fs.freeEntries a ↔
      g < fs.numBlockGroups ∧ Bitmap.test (fs.bitmapOf g a) i = false := by
  have small := lt_of_lt_of_le hi (fs.entriesInGroup_le_perGroup g a)
  rw [mem_freeEntries, FreeEntry, entryGroup_entryAt small, entryBit_entryAt small]
  constructor
  · rintro ⟨-, -, hg, clear⟩
    exact ⟨hg, clear⟩
  · rintro ⟨hg, clear⟩
    exact ⟨by unfold entryAt; omega, entryAt_lt_limit hi, hg, clear⟩

end Entries

section Shape

variable {X : Ext2Filesystem}

theorem SameShape.first (shape : SameShape fs X) (a : Bool) : X.superblock.first a = fs.superblock.first a := by
  cases a
  · exact shape.firstDataBlock
  · rfl

theorem SameShape.limit (shape : SameShape fs X) (a : Bool) : X.superblock.limit a = fs.superblock.limit a := by
  have count := shape.count a
  cases a
  · exact count
  · simp only [Superblock.count_true] at count
    simp only [Superblock.limit_true, count]

theorem SameShape.entryAt (shape : SameShape fs X) (g : ℕ) (a : Bool) (i : ℕ) :
    X.entryAt g a i = fs.entryAt g a i := by
  rw [Ext2Filesystem.entryAt, Ext2Filesystem.entryAt, shape.first, shape.perGroup]

theorem SameShape.mem_freeEntries_entryAt (shape : SameShape fs X) (hi : i < fs.entriesInGroup g a) :
    fs.entryAt g a i ∈ X.freeEntries a ↔
      g < fs.numBlockGroups ∧ Bitmap.test (X.bitmapOf g a) i = false := by
  rw [← shape.entryAt, Ext2Filesystem.mem_freeEntries_entryAt (by rw [shape.entriesInGroup]; exact hi),
    shape.numBlockGroups]

end Shape

section WriteBacks

variable {X : Ext2Filesystem} {new : ℕ → UInt8} {count super cached : ℕ}

theorem WriteBack.bitmapOf_eq (write : WriteBack fs X g a new count super cached)
    (hh : h < fs.numBlockGroups) (c : Bool) :
    X.bitmapOf h c = if h = g ∧ c = a then new else fs.bitmapOf h c := by
  split
  · next same =>
    obtain ⟨rfl, rfl⟩ := same
    exact write.bitmap
  · next other => exact write.retally.bitmapsOff h hh c fun same => other (Prod.mk.inj same)

theorem WriteBack.mem_freeEntries_entryAt (write : WriteBack fs X g a new count super cached) {c : Bool}
    (hi : i < fs.entriesInGroup h c) :
    fs.entryAt h c i ∈ X.freeEntries c ↔ h < fs.numBlockGroups ∧
      Bitmap.test (if h = g ∧ c = a then new else fs.bitmapOf h c) i = false := by
  rw [write.retally.shape.mem_freeEntries_entryAt hi]
  exact and_congr_right fun hh => by rw [write.bitmapOf_eq hh]

end WriteBacks

section Calls

variable {fs' : Ext2Filesystem} {b : ℕ}

end Calls

end Ext2Filesystem

namespace Ext2Filesystem

variable {fs : Ext2Filesystem}

end Ext2Filesystem

end Xinim.Ext2
