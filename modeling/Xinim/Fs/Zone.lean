import Xinim.Fs.Map

/-! `clear_zone` (fs/write.cpp): zero the blocks of a zone from the block that
holds `pos` to the zone's end. Block numbers are `uint16_t`, so the loop
counter `b` and its bound `bhi` live in 16 bits and `b++` wraps. The zone
scale is the super block's `s_log_zone_size`, a parameter as in `read_map`;
positions are nonnegative. The block loop runs on fuel, and a run still
going when the fuel is spent gives `none`. -/

namespace Xinim.Fs

/-- `bhi = static_cast<uint16_t>(((blo >> scale) + 1) << scale) - 1`, the last
block of `blo`'s zone, taken back to 16 bits. -/
def lastBlockOfZone (scale : ℕ) (blo : BlockNr) : BlockNr :=
  UInt16.ofNat (((blo.toNat >>> scale) + 1) <<< scale) - 1

/-- `for (b = blo; b <= bhi; b++)`, each turn a `get_block` with
`IoMode::NoRead`, a `zero_block` and a `put_block`. -/
def clearBlocks (bhi : BlockNr) : ℕ → BlockNr → Disk → Option Disk
  | 0, _, _ => none
  | fuel + 1, b, disk => if b ≤ bhi then clearBlocks bhi fuel (b + 1) (zeroBlock disk b) else some disk

def clearZone (scale : ℕ) (ino : Inode) (disk : Disk) (pos : ℕ) (flag : ℤ) (fuel : ℕ) :
    Except Fault (Option Disk) :=
  if scale = 0 then .ok (some disk) else
  let zoneSize := blockSize <<< scale
  let pos := if flag = 1 then pos / zoneSize * zoneSize else pos
  let next := pos + blockSize - 1
  -- `pos` in the last block of a zone: nothing to clear
  if next / zoneSize ≠ pos / zoneSize then .ok (some disk) else
  do
    let blo ← readMap scale ino disk next
    if blo = kNoBlock then return some disk
    return clearBlocks (lastBlockOfZone scale blo) fuel blo disk

theorem clearBlocks_top (b : BlockNr) (disk : Disk) : ∀ fuel, clearBlocks 65535 fuel b disk = none := by
  intro fuel
  induction fuel generalizing b disk with
  | zero => rfl
  | succ fuel ih =>
    rw [clearBlocks, if_pos (UInt16.le_iff_toNat_le.mpr (Nat.le_of_lt_succ b.toNat_lt)), ih]

theorem lastBlockOfZone_top {scale : ℕ} (small : scale ≤ 16) {blo : BlockNr}
    (last : blo.toNat >>> scale = 65535 >>> scale) : lastBlockOfZone scale blo = 65535 := by
  set zones := 2 ^ (16 - scale)
  set size := 2 ^ scale
  have split : (65536 : ℕ) = zones * size := by rw [← pow_add, Nat.sub_add_cancel small]; rfl
  have someZones : 1 ≤ zones := Nat.one_le_two_pow
  have someBlocks : 1 ≤ size := Nat.one_le_two_pow
  have quotient : 65535 / size = zones - 1 := by
    apply Nat.div_eq_of_lt_le
    · rw [Nat.sub_one_mul, ← split]
      omega
    · rw [Nat.sub_add_cancel someZones, ← split]
      omega
  have wraps : ((blo.toNat >>> scale) + 1) <<< scale = 2 ^ 16 := by
    rw [last, Nat.shiftLeft_eq, Nat.shiftRight_eq_div_pow, quotient, Nat.sub_add_cancel someZones, ← split]
    rfl
  rw [lastBlockOfZone, wraps]
  rfl

/-- Zone 0 of an inode on a volume of two-block zones at zone 32767, whose
blocks are 65534 and 65535. -/
def lastZoneInode : Inode := ⟨fun i => if i.val = 0 then 32767 else kNoZone⟩

theorem clear_zone_spins_in_last_zone (disk : Disk) (fuel : ℕ) :
    clearZone 1 lastZoneInode disk 0 0 fuel = .ok none := by
  have mapped : readMap 1 lastZoneInode disk 1023 = .ok 65534 := rfl
  have top : lastBlockOfZone 1 65534 = 65535 := lastBlockOfZone_top (by decide) (by decide)
  unfold clearZone
  rw [if_neg (by decide), if_neg (by decide), if_neg (by decide), show 0 + blockSize - 1 = 1023 from rfl, mapped]
  simp only [bind, Except.bind]
  rw [if_neg (by decide), top, clearBlocks_top]
  rfl

end Xinim.Fs
